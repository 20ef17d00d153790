import Diaporama.Json.Reader
import Diaporama.Proofs.Json.Grammar

/-!
# What readers make of texts

A reader delivers a value if it gives that value on every text of a JSON value, and stops right
behind the text. Strings, numbers and lists are delivered however they are written.
-/

namespace Diaporama.Json

open Stateful

variable {α β : Type}

/-- The reader gives `a` on `bs` and leaves `rest`, whatever has been noticed before. -/
def Reads (r : Reader α) (bs : List UInt8) (a : α) (rest : List UInt8) : Prop :=
  ∀ notices, ∃ notices', outcome r ⟨bs, notices⟩ = (.ok a, ⟨rest, notices'⟩)

def Stops (r : Reader α) (bs : List UInt8) (fault : Fault) : Prop :=
  ∀ notices, ∃ cursor, outcome r ⟨bs, notices⟩ = (.error fault, cursor)

def Refuses (r : Reader α) (bs : List UInt8) : Prop :=
  ∀ notices, ∃ fault cursor, outcome r ⟨bs, notices⟩ = (.error fault, cursor)

/-- The reader gives what `bs` means and leaves `rest`, and ends with a fault if `bs` means
nothing. -/
structure Settles (r : Reader α) (bs rest : List UInt8) (Means : α → Prop) : Prop where
  reads : ∀ a, Means a → Reads r bs a rest
  refuses : (∀ a, ¬ Means a) → Refuses r bs

def Delivers (r : Reader α) (v : Value) (a : α) : Prop :=
  ∀ ⦃bs rest : List UInt8⦄, v.At bs rest → Reads r bs a rest

namespace Reads

theorem bind {x : Reader α} {f : α → Reader β} {a : α} {b : β} {bs mid rest : List UInt8}
    (hx : Reads x bs a mid) (hf : Reads (f a) mid b rest) : Reads (x >>= f) bs b rest := by
  intro notices
  obtain ⟨between, hx⟩ := hx notices
  obtain ⟨after, hf⟩ := hf between
  refine ⟨after, ?_⟩
  rw [outcome_bind, hx]
  exact hf

theorem bind_stops {x : Reader α} {f : α → Reader β} {a : α} {bs mid : List UInt8} {fault : Fault}
    (hx : Reads x bs a mid) (hf : Stops (f a) mid fault) : Stops (x >>= f) bs fault := by
  intro notices
  obtain ⟨between, hx⟩ := hx notices
  obtain ⟨cursor, hf⟩ := hf between
  refine ⟨cursor, ?_⟩
  rw [outcome_bind, hx]
  exact hf

theorem bind_refuses {x : Reader α} {f : α → Reader β} {a : α} {bs mid : List UInt8}
    (hx : Reads x bs a mid) (hf : Refuses (f a) mid) : Refuses (x >>= f) bs := by
  intro notices
  obtain ⟨between, hx⟩ := hx notices
  obtain ⟨fault, cursor, hf⟩ := hf between
  refine ⟨fault, cursor, ?_⟩
  rw [outcome_bind, hx]
  exact hf

theorem bind_settles {x : Reader α} {f : α → Reader β} {a : α} {bs mid rest : List UInt8}
    {Means : β → Prop} (hx : Reads x bs a mid) (hf : Settles (f a) mid rest Means) :
    Settles (x >>= f) bs rest Means where
  reads b hb := hx.bind (hf.reads b hb)
  refuses hNone := hx.bind_refuses (hf.refuses hNone)

theorem unique {r : Reader α} {a a' : α} {bs rest rest' : List UInt8} (h : Reads r bs a rest)
    (h' : Reads r bs a' rest') : a = a' := by
  obtain ⟨notices, h⟩ := h []
  obtain ⟨notices', h'⟩ := h' []
  rw [h] at h'
  exact Except.ok.inj (congrArg Prod.fst h')

theorem pure (a : α) (bs : List UInt8) : Reads (Pure.pure a) bs a bs :=
  fun notices => ⟨notices, rfl⟩

theorem rest (bs : List UInt8) : Reads Reader.rest bs bs bs :=
  fun notices => ⟨notices, rfl⟩

theorem notice (notices : List Notice) (bs : List UInt8) : Reads (Reader.notice notices) bs () bs :=
  fun before => ⟨before ++ notices, rfl⟩

theorem setRest (bs rest : List UInt8) : Reads (Reader.setRest rest) bs () rest :=
  fun notices => ⟨notices, rfl⟩

theorem scan {f : List UInt8 → Except SyntaxFault (Scanned α)} {a : α} {bs rest : List UInt8}
    (h : f bs = .ok (a, rest)) : Reads (Reader.scan f) bs a rest := by
  refine (Reads.rest bs).bind ?_
  rw [h]
  exact (Reads.pure (a, rest) bs).bind ((setRest bs rest).bind (.pure a rest))

theorem skipping {f : List UInt8 → Except SyntaxFault (List UInt8)} {bs rest : List UInt8}
    (h : f bs = .ok rest) : Reads (Reader.skipping f) bs () rest := by
  refine (Reads.rest bs).bind ?_
  rw [h]
  exact (Reads.pure rest bs).bind (setRest bs rest)

theorem ofExcept {r : Except SyntaxFault α} {a : α} (h : r = .ok a) (bs : List UInt8) :
    Reads (Reader.ofExcept r) bs a bs := by
  rw [h]
  exact .pure a bs

theorem peek {b : UInt8} {tail bs : List UInt8} (h : dropSpace bs = b :: tail) :
    Reads Reader.peek bs (some (Char.ofUInt8 b)) (dropSpace bs) := by
  refine (Reads.rest bs).bind ((setRest bs (dropSpace bs)).bind ?_)
  rw [h]
  exact .pure _ _

theorem peek_end {bs : List UInt8} (h : dropSpace bs = []) : Reads Reader.peek bs none [] := by
  refine (Reads.rest bs).bind ?_
  rw [h]
  exact (setRest bs []).bind (.pure _ _)

theorem start {b : UInt8} {tail bs : List UInt8} (h : dropSpace bs = b :: tail) :
    Reads Reader.start bs (Char.ofUInt8 b) (dropSpace bs) :=
  (peek h).bind (.pure _ _)

end Reads

namespace Stops

theorem throw (fault : Fault) (bs : List UInt8) : Stops (throw fault : Reader α) bs fault :=
  fun notices => ⟨⟨bs, notices⟩, rfl⟩

theorem bind {x : Reader α} {bs : List UInt8} {fault : Fault} (h : Stops x bs fault)
    (f : α → Reader β) : Stops (x >>= f) bs fault := by
  intro notices
  obtain ⟨cursor, h⟩ := h notices
  refine ⟨cursor, ?_⟩
  rw [outcome_bind, h]

end Stops

namespace Refuses

theorem throw (fault : Fault) (bs : List UInt8) : Refuses (throw fault : Reader α) bs :=
  fun notices => ⟨fault, ⟨bs, notices⟩, rfl⟩

theorem bind {x : Reader α} {bs : List UInt8} (h : Refuses x bs) (f : α → Reader β) :
    Refuses (x >>= f) bs := by
  intro notices
  obtain ⟨fault, cursor, h⟩ := h notices
  refine ⟨fault, cursor, ?_⟩
  rw [outcome_bind, h]

/-- What ends with a fault wherever it starts does so behind any other reader. -/
theorem of_bind (x : Reader α) {f : α → Reader β} (h : ∀ a bs, Refuses (f a) bs)
    (bs : List UInt8) : Refuses (x >>= f) bs := by
  intro notices
  rw [outcome_bind]
  rcases outcome x ⟨bs, notices⟩ with ⟨fault | a, cursor⟩
  · exact ⟨fault, cursor, rfl⟩
  · exact h a cursor.rest cursor.notices

end Refuses

namespace Settles

theorem congr {r : Reader α} {bs rest : List UInt8} {Means Means' : α → Prop}
    (h : Settles r bs rest Means) (hMeans : ∀ a, Means a ↔ Means' a) :
    Settles r bs rest Means' where
  reads a ha := h.reads a ((hMeans a).mpr ha)
  refuses hNone := h.refuses fun a ha => hNone a ((hMeans a).mp ha)

theorem unique {r : Reader α} {a a' : α} {bs rest : List UInt8} {Means : α → Prop}
    (h : Settles r bs rest Means) (ha : Means a) (ha' : Means a') : a = a' :=
  (h.reads a ha).unique (h.reads a' ha')

theorem bind {x : Reader α} {f : α → Reader β} {bs mid rest : List UInt8} {Means : α → Prop}
    {Means' : β → Prop} (hx : Settles x bs mid Means)
    (hf : ∀ a, Means a → Settles (f a) mid rest Means') (hMeans : ∀ b, Means' b → ∃ a, Means a) :
    Settles (x >>= f) bs rest Means' where
  reads b hb := by
    obtain ⟨a, ha⟩ := hMeans b hb
    exact (hx.reads a ha).bind ((hf a ha).reads b hb)
  refuses hNone := by
    by_cases hSome : ∃ a, Means a
    · obtain ⟨a, ha⟩ := hSome
      exact (hx.reads a ha).bind_refuses ((hf a ha).refuses hNone)
    · exact (hx.refuses (not_exists.mp hSome)).bind f

/-- A reader that always goes on makes one thing of each meaning. -/
theorem bind_reads {x : Reader α} {f : α → Reader β} {g : α → β} {bs mid rest : List UInt8}
    {Means : α → Prop} (hx : Settles x bs mid Means) (hf : ∀ a, Reads (f a) mid (g a) rest) :
    Settles (x >>= f) bs rest fun b => ∃ a, Means a ∧ g a = b where
  reads := by
    rintro _ ⟨a, ha, rfl⟩
    exact (hx.reads a ha).bind (hf a)
  refuses hNone := (hx.refuses fun a ha => hNone (g a) ⟨a, ha, rfl⟩).bind f

theorem pure (a : α) (bs : List UInt8) : Settles (Pure.pure a) bs bs (a = ·) where
  reads := by
    rintro _ rfl
    exact .pure a bs
  refuses hNone := absurd rfl (hNone a)

theorem throw (fault : Fault) (bs rest : List UInt8) :
    Settles (throw fault : Reader α) bs rest fun _ => False where
  reads _ h := h.elim
  refuses _ := .throw fault bs

theorem ofExcept (r : Except SyntaxFault α) (bs : List UInt8) :
    Settles (Reader.ofExcept r) bs bs (r = .ok ·) where
  reads _ h := .ofExcept h bs
  refuses hNone := by
    cases r with
    | ok a => exact absurd rfl (hNone a)
    | error cause => exact .throw _ bs

end Settles

namespace MarkAt

variable {c : Char} {bs rest : List UInt8}

theorem peek (h : MarkAt c bs rest) : Reads Reader.peek bs (some c) (dropSpace bs) := by
  obtain ⟨b, hDrop, rfl⟩ := h
  exact .peek hDrop

theorem start (h : MarkAt c bs rest) : Reads Reader.start bs c (dropSpace bs) := by
  obtain ⟨b, hDrop, rfl⟩ := h
  exact .start hDrop

theorem skip (h : MarkAt c bs rest) : Reads Reader.skip (dropSpace bs) () rest := by
  obtain ⟨b, hDrop, rfl⟩ := h
  rw [hDrop]
  exact (Reads.rest _).bind (.setRest _ _)

theorem colon (h : MarkAt ':' bs rest) : Reads Reader.colon bs () rest :=
  h.peek.bind h.skip

end MarkAt

/-! ## Strings and numbers -/

theorem StringAt.key {s : String} {bs rest : List UInt8} (h : StringAt s bs rest) :
    Reads Reader.key (dropSpace bs) s rest := by
  obtain ⟨inner, hMark, hString⟩ := h
  exact hMark.skip.bind (.scan hString)

theorem delivers_text (expected s : String) : Delivers (Reader.text expected) (.string s) s := by
  rintro bs rest ⟨inner, hMark, hString⟩
  exact hMark.start.bind (hMark.skip.bind (.scan hString))

theorem DigitsAt.settles_numberOf {d : Digits} {bs rest : List UInt8} (h : DigitsAt d bs rest)
    (expected : String) : Settles (Reader.numberOf expected) bs rest (d.toNumber = .ok ·) := by
  obtain hNumber | ⟨inner, hMark, hNumber⟩ := h
  · obtain ⟨b, tail, hDrop, hDigit⟩ := isDigit_of_scanNumber hNumber
    have hPlus : Char.ofUInt8 b ≠ '-' := by
      intro hMinus
      rw [hMinus] at hDigit
      cases hDigit
    refine (Reads.start hDrop).bind_settles ?_
    rw [if_pos (by simp [hDigit])]
    unfold Reader.number
    rw [if_neg hPlus, beq_false_of_ne hPlus]
    exact (Reads.scan hNumber).bind_settles (.ofExcept d.toNumber rest)
  · refine hMark.start.bind_settles ?_
    exact hMark.skip.bind_settles ((Reads.scan hNumber).bind_settles (.ofExcept d.toNumber rest))

theorem NumberAt.reads_numberOf {n : Number} {bs rest : List UInt8} (h : NumberAt n bs rest)
    (expected : String) : Reads (Reader.numberOf expected) bs n rest := by
  obtain ⟨d, hDigits, hValue⟩ := numberAt_iff.mp h
  exact (hDigits.settles_numberOf expected).reads n hValue

theorem delivers_real (x : Float) : Delivers Reader.real (.real x) x := by
  rintro bs rest ⟨n, rfl, hNumber⟩
  refine (hNumber.reads_numberOf "f64").bind ?_
  cases n <;> exact .pure _ _

theorem delivers_below {n limit : Nat} (expected : String) (h : n < limit) :
    Delivers (Reader.below limit expected) (.natural n) n := by
  intro bs rest hNumber
  refine (NumberAt.reads_numberOf hNumber expected).bind ?_
  dsimp only
  rw [if_pos h]
  exact .pure n rest

theorem delivers_size32 (n : UInt32) : Delivers Reader.size32 (.natural n.toNat) n := by
  intro bs rest hNumber
  have hSame : n.toNat.toUInt32 = n := UInt32.ofNat_toNat
  refine (delivers_below "u32" n.toNat_lt hNumber).bind ?_
  rw [hSame]
  exact .pure n rest

/-! ## Lists and values that may be missing -/

theorem Value.Opens.ne_bracket {v : Value} {c : Char} (h : v.Opens c) : c ≠ ']' := by
  rintro rfl
  match v, h with
  | .natural _, h => exact Or.elim h (by decide) (by decide)
  | .real _, h => exact Or.elim h (by decide) (by decide)

theorem Value.Opens.ne_n {v : Value} {c : Char} (h : v.Opens c) (hNull : v ≠ .null) : c ≠ 'n' := by
  rintro rfl
  match v, h with
  | .null, _ => exact hNull rfl
  | .natural _, h => exact Or.elim h (by decide) (by decide)
  | .real _, h => exact Or.elim h (by decide) (by decide)

theorem delivers_optional {r : Reader α} {v : Value} {a : α} (h : Delivers r v a)
    (hNull : v ≠ .null) : Delivers (Reader.optional r) v (some a) := by
  intro bs rest hText
  obtain ⟨b, tail, hDrop, hOpens⟩ := hText.opens
  refine (Reads.peek hDrop).bind ?_
  rw [if_neg fun hChar => hOpens.ne_n hNull (Option.some.inj hChar)]
  exact (h hText.behindSpace).bind (.pure _ _)

theorem delivers_null (r : Reader α) : Delivers (Reader.optional r) .null none := by
  rintro bs rest ⟨inner, hMark, hWord⟩
  refine hMark.peek.bind ?_
  rw [if_pos rfl]
  exact hMark.skip.bind ((Reads.skipping hWord).bind (.pure none rest))

theorem delivers_ofOption {r : Reader α} {f : α → Value} (h : ∀ a, Delivers r (f a) a)
    (hNull : ∀ a, f a ≠ .null) (given : Option α) :
    Delivers (Reader.optional r) (.ofOption f given) given := by
  cases given with
  | none => exact delivers_null r
  | some a => exact delivers_optional (h a) (hNull a)

/-- Behind the comma there is an item, and space before it is gone. -/
theorem SeparatedAt.hasItem {first : Bool} {v : Value} {bs start next : List UInt8}
    (hSeparated : SeparatedAt first bs start) (hItem : v.At start next) :
    Reads (Reader.hasItem first) bs true (dropSpace start) := by
  obtain ⟨b, tail, hDrop, hOpens⟩ := hItem.opens
  have hBracket := hOpens.ne_bracket
  cases first with
  | true =>
    cases (show start = bs from hSeparated)
    refine (Reads.peek hDrop).bind ?_
    split
    · next h => cases h
    · next h => exact absurd (Option.some.inj h) hBracket
    · exact .pure _ _
  | false =>
    have hComma : MarkAt ',' bs start := hSeparated
    refine hComma.peek.bind (hComma.skip.bind ((Reads.peek hDrop).bind ?_))
    split
    · next h => exact absurd (Option.some.inj h) hBracket
    · exact .pure _ _
    · next h => cases h

/-- The items are read up to the bracket, which stays in the text. -/
theorem reads_items {r : Reader α} {vs : List Value} {as : List α}
    (h : List.Forall₂ (Delivers r) vs as) {first : Bool} {bs rest : List UInt8} {limit : Nat}
    (hItems : Value.ItemsAt first vs bs rest) (hLimit : vs.length < limit) :
    ∃ mid, Reads (Reader.items r first limit) bs as mid ∧ MarkAt ']' mid rest := by
  induction h generalizing first bs limit with
  | nil =>
    obtain ⟨limit, rfl⟩ := Nat.exists_eq_succ_of_ne_zero (Nat.ne_zero_of_lt hLimit)
    have hEnd : MarkAt ']' bs rest := hItems
    have hNone : Reads (Reader.hasItem first) bs false (dropSpace bs) :=
      hEnd.peek.bind (.pure false _)
    exact ⟨dropSpace bs, hNone.bind (.pure [] _), hEnd.behindSpace⟩
  | @cons v a vs as hItem hTail ih =>
    obtain ⟨limit, rfl⟩ := Nat.exists_eq_succ_of_ne_zero (Nat.ne_zero_of_lt hLimit)
    obtain ⟨start, next, hSeparated, hText, hItems⟩ := hItems
    obtain ⟨mid, hRead, hEnd⟩ := ih hItems (Nat.lt_of_succ_lt_succ hLimit)
    refine ⟨mid, ?_, hEnd⟩
    exact (hSeparated.hasItem hText).bind
      ((hItem hText.behindSpace).bind (hRead.bind (.pure (a :: as) _)))

theorem delivers_list {r : Reader α} {vs : List Value} {as : List α}
    (h : List.Forall₂ (Delivers r) vs as) : Delivers (Reader.list r) (.list vs) as := by
  rintro bs rest ⟨inner, hMark, hItems⟩
  have hLength := Value.ItemsAt.length_lt hItems
  have hLimit : vs.length < inner.length + 1 := by omega
  obtain ⟨mid, hRead, hEnd⟩ := reads_items h hItems hLimit
  refine hMark.start.bind (hMark.skip.bind ((Reads.rest inner).bind (hRead.bind ?_)))
  exact (hEnd.peek.bind hEnd.skip).bind (.pure as _)

/-! ## Whole texts -/

theorem result_read_of_reads {r : Reader α} {a : α} {text : ByteArray} {rest : List UInt8}
    (h : Reads r text.toList a rest) (hEnd : dropSpace rest = []) :
    (Json.read r text).result = .ok a := by
  have hWhole : Reads (Reader.whole r) text.toList a [] :=
    h.bind ((Reads.peek_end hEnd).bind (.pure a []))
  obtain ⟨notices, hRun⟩ := hWhole []
  exact congrArg Prod.fst hRun

theorem result_read {r : Reader α} {v : Value} {a : α} {text : ByteArray} (h : Delivers r v a)
    (hText : v.IsText text) : (Json.read r text).result = .ok a := by
  obtain ⟨rest, hAt, hEnd⟩ := hText
  exact result_read_of_reads (h hAt) hEnd

theorem result_read_of_stops {r : Reader α} {text : ByteArray} {fault : Fault}
    (h : Stops r text.toList fault) : (Json.read r text).result = .error fault := by
  have hWhole : Stops (Reader.whole r) text.toList fault := h.bind _
  obtain ⟨cursor, hRun⟩ := hWhole []
  exact congrArg Prod.fst hRun

theorem result_read_of_refuses {r : Reader α} {text : ByteArray} (h : Refuses r text.toList) :
    ∃ fault, (Json.read r text).result = .error fault := by
  have hWhole : Refuses (Reader.whole r) text.toList := h.bind _
  obtain ⟨fault, cursor, hRun⟩ := hWhole []
  exact ⟨fault, congrArg Prod.fst hRun⟩

end Diaporama.Json
