import Diaporama.Proofs.Json.Numbers
import Diaporama.Proofs.Json.Strings

/-!
# Written values are texts of themselves

A value is written mark by mark with space between the marks: none at all, or lines with two blanks
for each level, or any other. Where its numbers are read back, the text is a text of the value.
-/

namespace Diaporama.Json

open Text (bytes Within)

/-! ## Space between marks -/

section

variable {s : String} {bs rest : List UInt8}

theorem dropSpace_blank_append (hs : Within isBlank s) :
    dropSpace (bytes s ++ bs) = dropSpace bs := by
  refine List.dropWhile_append_of_pos fun b hb => ?_
  obtain ⟨c, hc, hSame⟩ := isSpace_of_mem_bytes hb
  rw [hSame, hs c hc]

theorem markAt_cons {b : UInt8} (hb : isSpace b = false) :
    MarkAt (Char.ofUInt8 b) (b :: rest) rest :=
  ⟨b, List.dropWhile_cons_of_neg (Bool.eq_false_iff.mp hb), rfl⟩

theorem MarkAt.blank_append {c : Char} (hs : Within isBlank s) (h : MarkAt c bs rest) :
    MarkAt c (bytes s ++ bs) rest := by
  simpa only [MarkAt, dropSpace_blank_append hs] using h

theorem StringAt.blank_append {t : String} (hs : Within isBlank s) (h : StringAt t bs rest) :
    StringAt t (bytes s ++ bs) rest := by
  obtain ⟨inner, hMark, hScan⟩ := h
  exact ⟨inner, hMark.blank_append hs, hScan⟩

theorem NumberAt.blank_append {n : Number} (hs : Within isBlank s) (h : NumberAt n bs rest) :
    NumberAt n (bytes s ++ bs) rest := by
  simpa only [NumberAt, MarkAt, dropSpace_blank_append hs] using h

theorem Value.At.blank_append {v : Value} (hs : Within isBlank s) (h : v.At bs rest) :
    v.At (bytes s ++ bs) rest :=
  match v, h with
  | null, ⟨inner, h, hWord⟩ => ⟨inner, h.blank_append hs, hWord⟩
  | boolean true, ⟨inner, h, hWord⟩ => ⟨inner, h.blank_append hs, hWord⟩
  | boolean false, ⟨inner, h, hWord⟩ => ⟨inner, h.blank_append hs, hWord⟩
  | natural _, h => NumberAt.blank_append hs h
  | real _, ⟨n, hFloat, h⟩ => ⟨n, hFloat, h.blank_append hs⟩
  | string _, h => StringAt.blank_append hs h
  | list _, ⟨inner, h, hItems⟩ => ⟨inner, h.blank_append hs, hItems⟩
  | object _, ⟨inner, h, hMembers⟩ => ⟨inner, h.blank_append hs, hMembers⟩

theorem isNumberByte_of_isSpace {b : UInt8} (h : isSpace b = true) : isNumberByte b = false := by
  simp only [isSpace, Bool.or_eq_true, decide_eq_true_eq] at h
  rcases h with ((rfl | rfl) | rfl) | rfl <;> rfl

theorem ends_blank_append {b : UInt8} (hs : Within isBlank s) (hb : isNumberByte b = false) :
    Ends isNumberByte (bytes s ++ b :: rest) := by
  have hFront : Ends isNumberByte (bytes s) := by
    intro a ha
    obtain ⟨c, hc, hSame⟩ := isSpace_of_mem_bytes (List.mem_of_mem_head? ha)
    exact isNumberByte_of_isSpace (hSame.trans (hs c hc))
  refine hFront.append ?_
  rintro _ ⟨⟩
  exact hb

end

/-- What a writer puts between the marks of a text, all of it space. -/
structure Spacing where
  /-- The start of a line at a level. -/
  line : Nat → String
  /-- What stands between a colon and its value. -/
  gap : String
  line_blank : ∀ level, Within isBlank (line level)
  gap_blank : Within isBlank gap

namespace Spacing

def tight : Spacing where
  line _ := ""
  gap := ""
  line_blank _ := by decide
  gap_blank := by decide

def lined : Spacing where
  line := Value.newline
  gap := " "
  line_blank level := by
    intro c hc
    rw [Value.newline, String.toList_ofList, List.mem_cons, List.mem_replicate] at hc
    rcases hc with rfl | ⟨-, rfl⟩ <;> rfl
  gap_blank := by decide

variable (sp : Spacing)

def more (closing : String) (level : Nat) : List String → String
  | [] => sp.line level ++ closing
  | part :: parts => "," ++ sp.line (level + 1) ++ part ++ more closing level parts

def bracketed (opening closing : String) (level : Nat) : List String → String
  | [] => opening ++ closing
  | part :: parts => opening ++ sp.line (level + 1) ++ part ++ sp.more closing level parts

mutual

/-- A value as it is written with this space, on a line of the level. -/
def text (level : Nat) : Value → String
  | .null => "null"
  | .boolean value => if value then "true" else "false"
  | .natural value => toString value
  | .real value => realText value
  | .string value => stringText value
  | .list items => sp.bracketed "[" "]" level (itemTexts (level + 1) items)
  | .object members => sp.bracketed "\x7b" "\x7d" level (memberTexts (level + 1) members)

def itemTexts (level : Nat) : List Value → List String
  | [] => []
  | item :: items => text level item :: itemTexts level items

def memberTexts (level : Nat) : List (String × Value) → List String
  | [] => []
  | (name, value) :: members =>
    (stringText name ++ ":" ++ sp.gap ++ text level value) :: memberTexts level members

end

/-! ## The spacing of the program -/

theorem more_lined (closing : String) (level : Nat) (part : String) (parts : List String) :
    part ++ lined.more closing level parts =
      ("," ++ Value.newline (level + 1)).intercalate (part :: parts) ++ Value.newline level ++
        closing := by
  induction parts generalizing part with
  | nil =>
    rw [String.intercalate_singleton, String.append_assoc]
    rfl
  | cons next parts ih =>
    have hNext := ih next
    simp only [String.intercalate_cons_cons, more, String.append_assoc] at hNext ⊢
    rw [← hNext]
    rfl

theorem bracketed_lined (opening closing : String) (level : Nat) (parts : List String) :
    lined.bracketed opening closing level parts = Value.bracketed opening closing level parts := by
  cases parts with
  | nil => rfl
  | cons part parts =>
    have hMore := more_lined closing level part parts
    rw [bracketed, Value.bracketed, String.append_assoc, hMore]
    · simp [lined, String.append_assoc]
    · nofun

mutual

theorem text_lined : (level : Nat) → (v : Value) → lined.text level v = v.pretty level
  | _, .null => rfl
  | _, .boolean _ => rfl
  | _, .natural _ => rfl
  | _, .real _ => rfl
  | _, .string _ => rfl
  | level, .list items => by
    rw [text, Value.pretty, itemTexts_lined, bracketed_lined]
  | level, .object members => by
    rw [text, Value.pretty, memberTexts_lined, bracketed_lined]

theorem itemTexts_lined : (level : Nat) → (items : List Value) →
    lined.itemTexts level items = Value.prettyItems level items
  | _, [] => rfl
  | level, item :: items => by
    rw [itemTexts, Value.prettyItems, text_lined, itemTexts_lined]

theorem memberTexts_lined : (level : Nat) → (members : List (String × Value)) →
    lined.memberTexts level members = Value.prettyMembers level members
  | _, [] => rfl
  | level, (name, value) :: members => by
    have hColon : stringText name ++ ":" ++ lined.gap = stringText name ++ ": " :=
      String.append_assoc.trans rfl
    rw [memberTexts, Value.prettyMembers, text_lined, memberTexts_lined, hColon]

end

end Spacing

/-! ## Values whose numbers are read back -/

namespace Value

mutual

def Rereadable : Value → Prop
  | natural n => n < UInt64.size
  | real x => ReadsBack x
  | list items => ItemsRereadable items
  | object members => MembersRereadable members
  | null | boolean _ | string _ => True

def ItemsRereadable : List Value → Prop
  | [] => True
  | item :: items => item.Rereadable ∧ ItemsRereadable items

def MembersRereadable : List (String × Value) → Prop
  | [] => True
  | (_, value) :: members => value.Rereadable ∧ MembersRereadable members

end

end Value

/-! ## Texts of values -/

namespace Spacing

variable (sp : Spacing) {rest : List UInt8}

theorem bytes_comma : bytes "," = [0x2C] := (Text.bytes_eq_flatMap _).trans rfl

theorem bytes_colon : bytes ":" = [0x3A] := (Text.bytes_eq_flatMap _).trans rfl

theorem bytes_openList : bytes "[" = [0x5B] := (Text.bytes_eq_flatMap _).trans rfl

theorem bytes_closeList : bytes "]" = [0x5D] := (Text.bytes_eq_flatMap _).trans rfl

theorem bytes_openObject : bytes "\x7b" = [0x7B] := (Text.bytes_eq_flatMap _).trans rfl

theorem bytes_closeObject : bytes "\x7d" = [0x7D] := (Text.bytes_eq_flatMap _).trans rfl

theorem ends_more {closing : String} {b : UInt8} (hClosing : bytes closing = [b])
    (hb : isNumberByte b = false) (level : Nat) (parts : List String) (rest : List UInt8) :
    Ends isNumberByte (bytes (sp.more closing level parts) ++ rest) := by
  cases parts with
  | nil =>
    rw [more, Text.bytes_append, hClosing, List.append_assoc]
    exact ends_blank_append (sp.line_blank level) hb
  | cons part parts =>
    simp only [more, Text.bytes_append, bytes_comma, List.append_assoc]
    rintro _ ⟨⟩
    rfl

mutual

theorem at_text : (v : Value) → (level : Nat) → {rest : List UInt8} → v.Rereadable →
    Ends isNumberByte rest → v.At (bytes (sp.text level v) ++ rest) rest
  | .null, _, _, _, _ => by
    have hNull : bytes "null" = [0x6E, 0x75, 0x6C, 0x6C] := (Text.bytes_eq_flatMap _).trans rfl
    rw [text, hNull]
    exact ⟨_, markAt_cons rfl, rfl⟩
  | .boolean true, _, _, _, _ => by
    have hTrue : bytes "true" = [0x74, 0x72, 0x75, 0x65] := (Text.bytes_eq_flatMap _).trans rfl
    rw [text, if_pos rfl, hTrue]
    exact ⟨_, markAt_cons rfl, rfl⟩
  | .boolean false, _, _, _, _ => by
    have hFalse : bytes "false" = [0x66, 0x61, 0x6C, 0x73, 0x65] :=
      (Text.bytes_eq_flatMap _).trans rfl
    rw [text, if_neg Bool.false_ne_true, hFalse]
    exact ⟨_, markAt_cons rfl, rfl⟩
  | .natural _, _, _, h, hRest => numberAt_natural h hRest
  | .real _, _, _, h, hRest => ReadsBack.numberAt h hRest
  | .string s, _, rest, _, _ => stringAt_stringText s rest
  | .list [], _, _, _, _ => by
    rw [text, itemTexts, bracketed, Text.bytes_append, bytes_openList, bytes_closeList]
    exact ⟨_, markAt_cons rfl, markAt_cons rfl⟩
  | .list (item :: items), level, rest, ⟨hItem, hItems⟩, hRest => by
    have hEnds := sp.ends_more bytes_closeList rfl level (sp.itemTexts (level + 1) items) rest
    have hAt := (at_text item (level + 1) hItem hEnds).blank_append (sp.line_blank (level + 1))
    simp only [text, itemTexts, bracketed, Text.bytes_append, bytes_openList, List.append_assoc]
    exact ⟨_, markAt_cons rfl, _, _, rfl, hAt, itemsAt_more items level hItems hRest⟩
  | .object [], _, _, _, _ => by
    rw [text, memberTexts, bracketed, Text.bytes_append, bytes_openObject, bytes_closeObject]
    exact ⟨_, markAt_cons rfl, markAt_cons rfl⟩
  | .object ((name, value) :: members), level, rest, ⟨hValue, hMembers⟩, hRest => by
    have hEnds := sp.ends_more bytes_closeObject rfl level (sp.memberTexts (level + 1) members) rest
    have hName (left : List UInt8) :=
      (stringAt_stringText name left).blank_append (sp.line_blank (level + 1))
    have hAt := (at_text value (level + 1) hValue hEnds).blank_append sp.gap_blank
    simp only [text, memberTexts, bracketed, Text.bytes_append, bytes_openObject, bytes_colon,
      List.append_assoc]
    exact ⟨_, markAt_cons rfl, _, _, _, _, rfl, hName _, markAt_cons rfl, hAt,
      membersAt_more members level hMembers hRest⟩

theorem itemsAt_more : (items : List Value) → (level : Nat) → {rest : List UInt8} →
    Value.ItemsRereadable items → Ends isNumberByte rest →
    Value.ItemsAt false items
      (bytes (sp.more "]" level (sp.itemTexts (level + 1) items)) ++ rest) rest
  | [], level, _, _, _ => by
    rw [itemTexts, more, Text.bytes_append, bytes_closeList, List.append_assoc]
    exact (markAt_cons rfl).blank_append (sp.line_blank level)
  | item :: items, level, rest, ⟨hItem, hItems⟩, hRest => by
    have hEnds := sp.ends_more bytes_closeList rfl level (sp.itemTexts (level + 1) items) rest
    have hAt := (at_text item (level + 1) hItem hEnds).blank_append (sp.line_blank (level + 1))
    simp only [itemTexts, more, Text.bytes_append, bytes_comma, List.append_assoc]
    exact ⟨_, _, markAt_cons rfl, hAt, itemsAt_more items level hItems hRest⟩

theorem membersAt_more : (members : List (String × Value)) → (level : Nat) →
    {rest : List UInt8} → Value.MembersRereadable members → Ends isNumberByte rest →
    Value.MembersAt false members
      (bytes (sp.more "\x7d" level (sp.memberTexts (level + 1) members)) ++ rest) rest
  | [], level, _, _, _ => by
    rw [memberTexts, more, Text.bytes_append, bytes_closeObject, List.append_assoc]
    exact (markAt_cons rfl).blank_append (sp.line_blank level)
  | (name, value) :: members, level, rest, ⟨hValue, hMembers⟩, hRest => by
    have hEnds := sp.ends_more bytes_closeObject rfl level (sp.memberTexts (level + 1) members) rest
    have hName (left : List UInt8) :=
      (stringAt_stringText name left).blank_append (sp.line_blank (level + 1))
    have hAt := (at_text value (level + 1) hValue hEnds).blank_append sp.gap_blank
    simp only [memberTexts, more, Text.bytes_append, bytes_comma, bytes_colon, List.append_assoc]
    exact ⟨_, _, _, _, markAt_cons rfl, hName _, markAt_cons rfl, hAt,
      membersAt_more members level hMembers hRest⟩

end

theorem isText_text {v : Value} (h : v.Rereadable) (level : Nat) :
    v.IsText (sp.text level v).toUTF8 := by
  have hAt : v.At (bytes (sp.text level v) ++ []) [] := sp.at_text v level h nofun
  rw [List.append_nil] at hAt
  exact ⟨[], hAt, rfl⟩

end Spacing

end Diaporama.Json
