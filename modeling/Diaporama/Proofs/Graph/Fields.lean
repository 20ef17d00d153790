import Std.Data.String.ToNat
import Diaporama.Proofs.Decimal.Text
import Diaporama.Proofs.Graph.Statement

/-!
# Reading a filter from its text

A filter is written as a keyword, an equals sign and fields between colons. The pixel format is the
one field that comes from outside; the reader takes it whole, so it may hold colons and equals signs
itself. Times are read as the texts they were written as.
-/

namespace Diaporama

open Text (Within Avoids)

/-! ## Fields -/

def isFieldChar (c : Char) : Bool :=
  Layout.isNumeric c || c == '_' || c == '='

theorem isField_of_numeric {s : String} (h : Within Layout.isNumeric s) : Within isFieldChar s :=
  h.mono fun c hc => by simp [isFieldChar, hc]

/-- The characters that part statements and what stands in them. -/
def separators : List Char :=
  ['[', ']', ',', ';']

theorem not_isFieldChar_of_mem_separators {c : Char} (h : c ∈ separators) :
    isFieldChar c = false ∧ c ≠ '=' ∧ c ≠ ':' := by
  simp only [separators, List.mem_cons, List.not_mem_nil, or_false] at h
  rcases h with rfl | rfl | rfl | rfl <;> decide

def number? (cs : List Char) : Option Nat :=
  (String.ofList cs).toNat?

def value? (key : String) (cs : List Char) : Option String :=
  (cs.dropPrefix? (key ++ "=").toList).map String.ofList

theorem number?_toString (n : Nat) : number? (toString n).toList = some n := by
  rw [number?, String.ofList_toList]
  exact Nat.toNat?_repr n

theorem value?_toList (key value : String) :
    value? key (key ++ "=" ++ value).toList = some value := by
  rw [value?, String.toList_append, List.dropPrefix?_append_of_beq _ (beq_self_eq_true _),
    Option.map_some, String.ofList_toList]

theorem isField_entry {key value : String} (hKey : Within isFieldChar key)
    (hValue : Within isFieldChar value) : Within isFieldChar (key ++ "=" ++ value) := by
  have hEquals : Within isFieldChar "=" := by decide
  exact (hKey.append hEquals).append hValue

namespace FadeDirection

def ofName? (name : String) : Option FadeDirection :=
  [fromBlack, toBlack].find? fun d => d.name == name

theorem ofName?_name (d : FadeDirection) : ofName? d.name = some d := by
  cases d <;> decide

theorem isField_name (d : FadeDirection) : Within isFieldChar d.name := by
  cases d <;> decide

end FadeDirection

namespace BlendStyle

def ofName? (name : String) : Option BlendStyle :=
  [fade, dissolve, slideLeft, slideRight, zoomIn].find? fun s => s.name == name

theorem ofName?_name (s : BlendStyle) : ofName? s.name = some s := by
  cases s <;> decide

theorem isField_name (s : BlendStyle) : Within isFieldChar s.name := by
  cases s <;> decide

end BlendStyle

namespace Canvas

def ofFields? (width height : List Char) : Option Canvas := do
  return ⟨UInt32.ofNat (← number? width), UInt32.ofNat (← number? height)⟩

theorem ofFields?_toString (c : Canvas) :
    ofFields? (toString c.width).toList (toString c.height).toList = some c := by
  have hWidth : number? (toString c.width).toList = some c.width.toNat := number?_toString _
  have hHeight : number? (toString c.height).toList = some c.height.toNat := number?_toString _
  simp [ofFields?, hWidth, hHeight]

end Canvas

/-! ## Filters -/

/-- What a filter's text begins with, up to the equals sign. -/
inductive Keyword where
  | scale
  | crop
  | setsar
  | format
  | fade
  | xfade
  deriving DecidableEq, Repr

namespace Keyword

def name : Keyword → String
  | scale => "scale"
  | crop => "crop"
  | setsar => "setsar"
  | format => "format"
  | fade => "fade"
  | xfade => "xfade"

def ofName? (name : String) : Option Keyword :=
  [scale, crop, setsar, format, fade, xfade].find? fun k => k.name == name

theorem ofName?_name (k : Keyword) : ofName? k.name = some k := by
  cases k <;> decide

theorem isField_name (k : Keyword) : Within isFieldChar k.name := by
  cases k <;> decide

theorem equals_not_mem_name (k : Keyword) : '=' ∉ k.name.toList := by
  cases k <;> decide

end Keyword

namespace Filter

variable {T : Type}

def mapTime {U : Type} (f : T → U) : Filter T → Filter U
  | cover canvas => .cover canvas
  | crop canvas => .crop canvas
  | squarePixels => .squarePixels
  | format pixels => .format pixels
  | fade direction start duration => .fade direction (f start) (f duration)
  | blend style duration offset => .blend style (f duration) (f offset)

def keyword : Filter T → Keyword
  | cover _ => .scale
  | crop _ => .crop
  | squarePixels => .setsar
  | format _ => .format
  | fade .. => .fade
  | blend .. => .xfade

@[simp] theorem keyword_mapTime {U : Type} (f : T → U) (x : Filter T) :
    (x.mapTime f).keyword = x.keyword := by
  cases x <;> rfl

theorem keyword_eq_format_iff {f : Filter T} :
    f.keyword = .format ↔ ∃ pixels, f = .format pixels := by
  cases f <;> simp [keyword]

/-- The fields behind the keyword of a filter whose times are texts. -/
def fields : Filter String → List String
  | cover canvas =>
    [toString canvas.width, toString canvas.height, "force_original_aspect_ratio=increase"]
  | crop canvas => [toString canvas.width, toString canvas.height]
  | squarePixels => ["1"]
  | format pixels => [pixels]
  | fade direction start duration =>
    ["t" ++ "=" ++ direction.name, "st" ++ "=" ++ start, "d" ++ "=" ++ duration]
  | blend style duration offset =>
    ["transition" ++ "=" ++ style.name, "duration" ++ "=" ++ duration, "offset" ++ "=" ++ offset]

theorem fields_ne_nil (f : Filter String) : f.fields ≠ [] := by
  cases f <;> simp [fields]

/-- The filter that a keyword and its fields stand for; the pixel format is not among them. -/
def ofFields? : Keyword → List (List Char) → Option (Filter String)
  | .scale, [width, height, fit] =>
    if fit = "force_original_aspect_ratio=increase".toList then
      (Canvas.ofFields? width height).map .cover
    else none
  | .crop, [width, height] => (Canvas.ofFields? width height).map .crop
  | .setsar, [ratio] => if ratio = ['1'] then some .squarePixels else none
  | .fade, [direction, start, duration] => do
    let direction ← FadeDirection.ofName? (← value? "t" direction)
    return .fade direction (← value? "st" start) (← value? "d" duration)
  | .xfade, [style, duration, offset] => do
    let style ← BlendStyle.ofName? (← value? "transition" style)
    return .blend style (← value? "duration" duration) (← value? "offset" offset)
  | _, _ => none

/-- The filter that a keyword and the text behind the equals sign stand for. -/
def ofValue? (k : Keyword) (value : List Char) : Option (Filter String) :=
  if k = .format then some (.format (String.ofList value))
  else ofFields? k (value.splitOn ':')

def ofChars? (cs : List Char) : Option (Filter String) := do
  let keyword ← Keyword.ofName? (String.ofList (cs.takeWhile (· != '=')))
  ofValue? keyword ((cs.dropWhile (· != '=')).drop 1)

theorem toList_text (f : Filter Float) :
    f.text.toList = f.keyword.name.toList ++ '=' ::
      [':'].intercalate ((f.mapTime Seconds.text).fields.map String.toList) := by
  cases f with
  | cover canvas =>
      change ("scale=" ++ canvas.pair ++ ":force_original_aspect_ratio=increase").toList = _
      simp [Canvas.pair, keyword, Keyword.name, mapTime, fields, List.intercalate_cons_cons]
  | crop canvas =>
      change ("crop=" ++ canvas.pair).toList = _
      simp [Canvas.pair, keyword, Keyword.name, mapTime, fields, List.intercalate_cons_cons]
  | squarePixels => rfl
  | format pixels =>
      change ("format=" ++ pixels).toList = _
      simp [keyword, Keyword.name, mapTime, fields]
  | fade direction start duration =>
      change ("fade=t=" ++ direction.name ++ ":st=" ++ Seconds.text start ++ ":d=" ++
        Seconds.text duration).toList = _
      simp [keyword, Keyword.name, mapTime, fields, List.intercalate_cons_cons]
  | blend style duration offset =>
      change ("xfade=transition=" ++ style.name ++ ":duration=" ++ Seconds.text duration ++
        ":offset=" ++ Seconds.text offset).toList = _
      simp [keyword, Keyword.name, mapTime, fields, List.intercalate_cons_cons]

theorem isField_of_mem_fields {f : Filter Float} (h : f.keyword ≠ .format) :
    ∀ field ∈ (f.mapTime Seconds.text).fields, Within isFieldChar field := by
  have hCount (n : UInt32) : Within isFieldChar (toString n) :=
    isField_of_numeric (Layout.numeric_nat n.toNat)
  have hTime (x : Float) : Within isFieldChar (Seconds.text x) :=
    isField_of_numeric (Seconds.numeric_text x)
  cases f with
  | cover canvas =>
      simpa [mapTime, fields, hCount] using by decide
  | crop canvas => simp [mapTime, fields, hCount]
  | squarePixels => simpa [mapTime, fields] using by decide
  | format pixels => exact absurd rfl h
  | fade direction start duration =>
      simp only [mapTime, fields, List.forall_mem_cons, List.not_mem_nil, false_imp_iff,
        implies_true, and_true]
      exact ⟨isField_entry (by decide) direction.isField_name,
        isField_entry (by decide) (hTime start), isField_entry (by decide) (hTime duration)⟩
  | blend style duration offset =>
      simp only [mapTime, fields, List.forall_mem_cons, List.not_mem_nil, false_imp_iff,
        implies_true, and_true]
      exact ⟨isField_entry (by decide) style.isField_name,
        isField_entry (by decide) (hTime duration), isField_entry (by decide) (hTime offset)⟩

theorem ofFields?_fields {f : Filter String} (h : f.keyword ≠ .format) :
    ofFields? f.keyword (f.fields.map String.toList) = some f := by
  cases f with
  | cover canvas =>
      simp only [keyword, fields, List.map_cons, List.map_nil, ofFields?, if_true,
        Canvas.ofFields?_toString, Option.map_some]
  | crop canvas =>
      simp only [keyword, fields, List.map_cons, List.map_nil, ofFields?,
        Canvas.ofFields?_toString, Option.map_some]
  | squarePixels => rfl
  | format pixels => exact absurd rfl h
  | fade direction start duration =>
      simp only [keyword, fields, List.map_cons, List.map_nil, ofFields?, value?_toList,
        FadeDirection.ofName?_name, Option.bind_eq_bind, Option.bind_some]
      rfl
  | blend style duration offset =>
      simp only [keyword, fields, List.map_cons, List.map_nil, ofFields?, value?_toList,
        BlendStyle.ofName?_name, Option.bind_eq_bind, Option.bind_some]
      rfl

theorem ofValue?_fields (f : Filter Float) :
    ofValue? f.keyword ([':'].intercalate ((f.mapTime Seconds.text).fields.map String.toList)) =
      some (f.mapTime Seconds.text) := by
  by_cases hFormat : f.keyword = .format
  · obtain ⟨pixels, rfl⟩ := keyword_eq_format_iff.mp hFormat
    simp [ofValue?, keyword, mapTime, fields]
  · have hSplit : ([':'].intercalate ((f.mapTime Seconds.text).fields.map String.toList)).splitOn
        ':' = (f.mapTime Seconds.text).fields.map String.toList := by
      refine List.splitOn_intercalate ':' (fun cs hcs => ?_) (by simpa using fields_ne_nil _)
      obtain ⟨field, hField, rfl⟩ := List.mem_map.mp hcs
      exact (isField_of_mem_fields hFormat field hField).not_mem (by decide)
    rw [ofValue?, if_neg hFormat, hSplit]
    simpa using ofFields?_fields (f := f.mapTime Seconds.text) (by simpa using hFormat)

/-- A filter is read back from its text, whatever pixel format it names. -/
theorem ofChars?_text (f : Filter Float) :
    ofChars? f.text.toList = some (f.mapTime Seconds.text) := by
  have hKeyword : ∀ c ∈ f.keyword.name.toList, (c != '=') = true := fun c hc =>
    bne_iff_ne.mpr fun hEq => by
      subst hEq
      exact f.keyword.equals_not_mem_name hc
  rw [ofChars?, toList_text, List.takeWhile_append_of_pos hKeyword,
    List.dropWhile_append_of_pos hKeyword]
  simp [Keyword.ofName?_name, ofValue?_fields]

def pixels? : Filter T → Option String
  | format pixels => some pixels
  | _ => none

/-- The pixel format a filter names, if any, leaves the separators of a graph's text alone. -/
def Legible (f : Filter T) : Prop :=
  ∀ pixels ∈ f.pixels?, Avoids separators pixels

instance (f : Filter T) : Decidable f.Legible :=
  inferInstanceAs (Decidable (∀ pixels ∈ f.pixels?, Avoids separators pixels))

/-- What is no part of a field and not in the pixel format is nowhere in the text of a filter. -/
theorem not_mem_text {f : Filter Float} {c : Char} (hField : isFieldChar c = false)
    (hColon : c ≠ ':') (hPixels : ∀ pixels ∈ f.pixels?, c ∉ pixels.toList) :
    c ∉ f.text.toList := by
  have hEquals : c ≠ '=' := by
    rintro rfl
    cases hField
  have hName : c ∉ f.keyword.name.toList := f.keyword.isField_name.not_mem hField
  have hFields : ∀ field ∈ (f.mapTime Seconds.text).fields, c ∉ field.toList := by
    by_cases hFormat : f.keyword = .format
    · obtain ⟨pixels, rfl⟩ := keyword_eq_format_iff.mp hFormat
      simpa [mapTime, fields] using hPixels pixels rfl
    · exact fun field hMem => (isField_of_mem_fields hFormat field hMem).not_mem hField
  rw [toList_text]
  intro hMem
  rcases List.mem_append.mp hMem with hMem | hMem
  · exact hName hMem
  rcases List.mem_cons.mp hMem with hMem | hMem
  · exact hEquals hMem
  rcases Text.mem_intercalate hMem with hMem | ⟨cs, hcs, hMem⟩
  · exact hColon (by simpa using hMem)
  · obtain ⟨field, hMember, rfl⟩ := List.mem_map.mp hcs
    exact hFields field hMember hMem

theorem Legible.not_mem_text {f : Filter Float} (h : f.Legible) {c : Char}
    (hc : c ∈ separators) : c ∉ f.text.toList :=
  have hOther := not_isFieldChar_of_mem_separators hc
  Filter.not_mem_text hOther.1 hOther.2.2 fun pixels hPixels => h pixels hPixels c hc

theorem text_ne_nil (f : Filter Float) : f.text.toList ≠ [] := by
  rw [toList_text]
  simp

end Filter

end Diaporama
