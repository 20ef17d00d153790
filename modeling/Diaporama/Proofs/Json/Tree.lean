import Diaporama.Proofs.Json.Grammar

/-!
# What a JSON text holds

Every JSON text holds one tree, whatever a reader makes of it. A numeral may be too large for any
number and a string may be no text; both can be skipped all the same, as every tree can.
-/

namespace Diaporama.Json

inductive Tree where
  | null
  | boolean (value : Bool)
  | number (value : Number)
  /-- A numeral that no double comes near. -/
  | tooLarge
  | string (value : String)
  /-- A string with a lone surrogate, or with bytes that are no text. -/
  | noText
  | list (items : List Tree)
  | object (members : List (String × Tree))

namespace Tree

mutual

/-- A text of the tree stands at the front, perhaps behind space, and `rest` follows it. -/
def At : Tree → List UInt8 → List UInt8 → Prop
  | null, bs, rest => WordAt 'n' ['u', 'l', 'l'] bs rest
  | boolean true, bs, rest => WordAt 't' ['r', 'u', 'e'] bs rest
  | boolean false, bs, rest => WordAt 'f' ['a', 'l', 's', 'e'] bs rest
  | number n, bs, rest => NumberAt n bs rest
  | tooLarge, bs, rest => ∃ d cause, DigitsAt d bs rest ∧ d.toNumber = .error cause
  | string s, bs, rest => StringAt s bs rest
  | noText, bs, rest => ∃ inner cause,
      MarkAt '"' bs inner ∧ skipString inner = .ok rest ∧ scanString inner = .error cause
  | list items, bs, rest => ∃ inner, MarkAt '[' bs inner ∧ ItemsAt true items inner rest
  | object members, bs, rest => ∃ inner, MarkAt '\x7b' bs inner ∧ MembersAt true members inner rest

def ItemsAt (first : Bool) : List Tree → List UInt8 → List UInt8 → Prop
  | [], bs, rest => MarkAt ']' bs rest
  | item :: items, bs, rest =>
    ∃ start next, SeparatedAt first bs start ∧ item.At start next ∧ ItemsAt false items next rest

def MembersAt (first : Bool) : List (String × Tree) → List UInt8 → List UInt8 → Prop
  | [], bs, rest => MarkAt '\x7d' bs rest
  | (name, value) :: members, bs, rest =>
    ∃ start named valued next, SeparatedAt first bs start ∧ StringAt name start named ∧
      MarkAt ':' named valued ∧ value.At valued next ∧ MembersAt false members next rest

end

/-- The whole text is a text of the tree, with space around it. -/
def IsText (t : Tree) (text : ByteArray) : Prop :=
  ∃ rest, t.At text.toList rest ∧ dropSpace rest = []

end Tree

theorem StringAt.opens {s : String} {bs rest : List UInt8} (h : StringAt s bs rest) :
    ∃ b tail, dropSpace bs = b :: tail ∧ Bracket.object.closes (Char.ofUInt8 b) = false := by
  obtain ⟨inner, ⟨b, hDrop, hQuote⟩, -⟩ := h
  exact ⟨b, inner, hDrop, by simp [Bracket.closes, hQuote]⟩

/-! ## Scans that do not keep what they read -/

/-- Where a string is skipped when it would be kept in this state: surrogates are not counted. -/
def StringState.skipped : StringState → StringState
  | text => text
  | escape => escape
  | hex _ digits => hex none digits
  | afterLead _ => text
  | afterLeadEscape _ => escape

theorem unitStep_skipped {lead : Option Nat} {unit : Nat} {step : StringStep}
    (h : unitStep true lead unit = .ok step) :
    ∃ bytes next, step = .go bytes next ∧ next.skipped = .text := by
  cases lead with
  | some high =>
    simp only [unitStep, Bool.not_true, Bool.false_eq_true, if_false] at h
    split at h <;> cases h
    exact ⟨_, _, rfl, rfl⟩
  | none =>
    simp only [unitStep, Bool.not_true, Bool.false_eq_true, if_false] at h
    split at h
    · cases h
    · split at h <;> cases h
      · exact ⟨_, _, rfl, rfl⟩
      · exact ⟨_, _, rfl, rfl⟩

theorem skipped_of_escapeStep {b : UInt8} {bytes : List UInt8} {next : StringState}
    (h : escapeStep b = .ok (.go bytes next)) : next.skipped = next := by
  unfold escapeStep at h
  split at h <;> cases h <;> rfl

theorem skipped_of_textStep {b : UInt8} {bytes : List UInt8} {next : StringState}
    (h : stringStep true .text b = .ok (.go bytes next)) : next.skipped = next := by
  simp only [stringStep] at h
  split at h
  · cases h
  · cases h
    rfl
  · split at h <;> cases h
    rfl

/-- What is kept can be skipped: both go through a string side by side. -/
theorem stringStep_skipped {state : StringState} {b : UInt8} {step : StringStep}
    (h : stringStep true state b = .ok step) :
    match step with
    | .close => stringStep false state.skipped b = .ok .close
    | .go _ next => ∃ bytes, stringStep false state.skipped b = .ok (.go bytes next.skipped) := by
  cases state with
  | text =>
    cases step with
    | close => exact h
    | go bytes next =>
      refine ⟨bytes, ?_⟩
      rw [skipped_of_textStep h]
      exact h
  | escape =>
    cases step with
    | close => exact h
    | go bytes next =>
      refine ⟨bytes, ?_⟩
      rw [skipped_of_escapeStep h]
      exact h
  | hex lead digits =>
    simp only [stringStep] at h
    split at h
    · next hShort =>
      cases h
      exact ⟨[], if_pos hShort⟩
    · next hLong =>
      split at h
      · next unit hUnit =>
        obtain ⟨bytes, next, rfl, hNext⟩ := unitStep_skipped h
        refine ⟨[], ?_⟩
        rw [hNext]
        simp [stringStep, StringState.skipped, hLong, hUnit, unitStep]
      · cases h
  | afterLead lead =>
    simp only [stringStep] at h
    split at h
    · next hChar =>
      cases h
      exact ⟨[], by simp [stringStep, StringState.skipped, hChar]⟩
    · cases h
  | afterLeadEscape lead =>
    simp only [stringStep] at h
    split at h
    · next hChar =>
      cases h
      exact ⟨[], by simp [stringStep, escapeStep, StringState.skipped, hChar]⟩
    · cases h

theorem scanBytes_skipped {state : StringState} {done bs bytes rest : List UInt8}
    (h : scanBytes true state done bs = .ok (bytes, rest)) (left : List UInt8) :
    ∃ skipped, scanBytes false state.skipped left bs = .ok (skipped, rest) := by
  fun_induction scanBytes true state done bs generalizing left with
  | case1 => cases h
  | case2 => cases h
  | case3 state done b bs hStep =>
    cases h
    refine ⟨left.reverse, ?_⟩
    rw [scanBytes, stringStep_skipped hStep]
  | case4 state done b bs bytes next hStep ih =>
    obtain ⟨more, hSkip⟩ := stringStep_skipped hStep
    obtain ⟨skipped, hRest⟩ := ih h (more.reverse ++ left)
    refine ⟨skipped, ?_⟩
    rw [scanBytes, hSkip]
    exact hRest

theorem skipString_of_scanString {s : String} {bs rest : List UInt8}
    (h : scanString bs = .ok (s, rest)) : skipString bs = .ok rest := by
  obtain ⟨⟨bytes, left⟩, hBytes, hText⟩ := bind_eq_ok_iff.mp h
  simp only at hText
  split at hText <;> cases hText
  obtain ⟨skipped, hSkip⟩ := scanBytes_skipped hBytes []
  exact map_eq_ok_iff.mpr ⟨(skipped, rest), hSkip, rfl⟩

theorem length_of_skipString {bs rest : List UInt8} (h : skipString bs = .ok rest) :
    rest.length ≤ bs.length := by
  obtain ⟨⟨bytes, left⟩, hBytes, rfl⟩ := map_eq_ok_iff.mp h
  exact length_of_scanBytes hBytes

theorem skipNumber_of_scanNumber {negative : Bool} {d : Digits} {bs rest : List UInt8}
    (h : scanNumber negative bs = .ok (d, rest)) : skipNumber bs = .ok rest := by
  obtain ⟨⟨whole, afterWhole⟩, hWhole, h⟩ := bind_eq_ok_iff.mp h
  obtain ⟨⟨fraction, afterFraction⟩, hFraction, h⟩ := bind_eq_ok_iff.mp h
  obtain ⟨⟨exponent, afterExponent⟩, hExponent, h⟩ := bind_eq_ok_iff.mp h
  cases h
  have hScan : scanNumber false bs = .ok (⟨false, whole, fraction, exponent⟩, rest) :=
    bind_eq_ok_iff.mpr ⟨_, hWhole, bind_eq_ok_iff.mpr ⟨_, hFraction,
      bind_eq_ok_iff.mpr ⟨_, hExponent, rfl⟩⟩⟩
  rw [skipNumber, hScan]

/-! ## Skipping a tree -/

/-- In so many rounds a skip goes from `bs` to `rest`, where it has left the brackets `inner`. -/
def SkipsIn (rounds : Nat) (state : SkipState) (inner : List Bracket) (bs rest : List UInt8) :
    Prop :=
  ∀ more brackets, skipRounds (more + rounds) state (inner ++ brackets) bs =
    skipRounds more (.next true) brackets rest

theorem skipRounds_dropSpace (rounds : Nat) (brackets : List Bracket) (bs : List UInt8) :
    skipRounds rounds .value brackets (dropSpace bs) = skipRounds rounds .value brackets bs := by
  cases rounds with
  | zero => rfl
  | succ rounds => rw [skipRounds, skipRounds, dropSpace_dropSpace]

theorem skipKey_dropSpace (bracket : Bracket) (rounds : Nat) (brackets : List Bracket)
    (bs : List UInt8) :
    (skipKey bracket (dropSpace bs) >>= skipRounds rounds .value brackets) =
      skipKey bracket bs >>= skipRounds rounds .value brackets := by
  cases bracket with
  | list => exact skipRounds_dropSpace rounds brackets bs
  | object => rw [skipKey, skipKey, dropSpace_dropSpace]

/-- Behind what separates two parts comes the key, if there is one, and then a value. -/
theorem SeparatedAt.skipRounds_next {first : Bool} {bracket : Bracket} {bs start : List UInt8}
    (h : SeparatedAt first bs start)
    (hOpen : ∃ b tail, dropSpace start = b :: tail ∧ bracket.closes (Char.ofUInt8 b) = false)
    (rounds : Nat) (brackets : List Bracket) :
    skipRounds (rounds + 1) (.next !first) (bracket :: brackets) bs =
      skipKey bracket start >>= skipRounds rounds .value (bracket :: brackets) := by
  cases first with
  | true =>
    cases (show start = bs from h)
    obtain ⟨b, tail, hDrop, hOpen⟩ := hOpen
    rw [← skipKey_dropSpace, hDrop]
    simp [skipRounds, hDrop, hOpen]
  | false =>
    obtain ⟨b, hDrop, hComma⟩ : MarkAt ',' bs start := h
    simp [skipRounds, hDrop, hComma]

theorem MarkAt.skipRounds_next {c : Char} {bracket : Bracket} {bs rest : List UInt8}
    (h : MarkAt c bs rest) (hClose : bracket.closes c = true) (after : Bool) :
    SkipsIn 1 (.next after) [bracket] bs rest := by
  intro rounds brackets
  obtain ⟨b, hDrop, hChar⟩ := h
  have hComma : c ≠ ',' := by
    rintro rfl
    cases bracket <;> cases hClose
  simp [skipRounds, hDrop, hChar, hComma, hClose]

theorem DigitsAt.skipsIn {d : Digits} {bs rest : List UInt8} (h : DigitsAt d bs rest) :
    SkipsIn 1 .value [] bs rest := by
  intro rounds brackets
  obtain hNumber | ⟨inner, ⟨b, hDrop, hChar⟩, hNumber⟩ := h
  · obtain ⟨b, tail, hDrop, hDigit⟩ := isDigit_of_scanNumber hNumber
    rw [hDrop] at hNumber
    rw [skipRounds, hDrop]
    simp only
    split
    all_goals try
      next hChar =>
        rw [hChar] at hDigit
        cases hDigit
    rw [if_pos hDigit, skipNumber_of_scanNumber hNumber]
    rfl
  · rw [skipRounds, hDrop]
    simp only [hChar]
    rw [skipNumber_of_scanNumber hNumber]
    rfl

theorem WordAt.skipsIn {c : Char} {cs : List Char} {bs rest : List UInt8} (h : WordAt c cs bs rest)
    (hWord : (c, cs) ∈ [('n', ['u', 'l', 'l']), ('t', ['r', 'u', 'e']),
      ('f', ['a', 'l', 's', 'e'])]) : SkipsIn 1 .value [] bs rest := by
  intro rounds brackets
  obtain ⟨inner, ⟨b, hDrop, rfl⟩, hScan⟩ := h
  simp only [List.mem_cons, List.not_mem_nil, Prod.mk.injEq, or_false] at hWord
  obtain ⟨hChar, rfl⟩ | ⟨hChar, rfl⟩ | ⟨hChar, rfl⟩ := hWord
  all_goals
    rw [skipRounds, hDrop]
    simp only [hChar]
    rw [hScan]
    rfl

theorem skipsIn_string {bs inner rest : List UInt8} (hMark : MarkAt '"' bs inner)
    (hString : skipString inner = .ok rest) : SkipsIn 1 .value [] bs rest := by
  intro rounds brackets
  obtain ⟨b, hDrop, hChar⟩ := hMark
  rw [skipRounds, hDrop]
  simp only [hChar]
  rw [hString]
  rfl

theorem MarkAt.skipsIn {c : Char} {bracket : Bracket} {bs inner rest : List UInt8} {n : Nat}
    (h : MarkAt c bs inner) (hOpens : (c, bracket) ∈ [('[', .list), ('\x7b', .object)])
    (hInner : SkipsIn n (.next false) [bracket] inner rest) : SkipsIn (n + 1) .value [] bs rest := by
  intro rounds brackets
  obtain ⟨b, hDrop, rfl⟩ := h
  rw [← hInner rounds brackets, ← Nat.add_assoc, skipRounds, hDrop]
  simp only [List.mem_cons, List.not_mem_nil, Prod.mk.injEq, or_false] at hOpens
  obtain ⟨hChar, rfl⟩ | ⟨hChar, rfl⟩ := hOpens <;> simp only [hChar] <;> rfl

/-- Of two parts in a row the first takes a round to come to it. -/
theorem SkipsIn.part {first : Bool} {bracket : Bracket} {bs start valued next rest : List UInt8}
    {n m : Nat} (hSeparated : SeparatedAt first bs start)
    (hOpen : ∃ b tail, dropSpace start = b :: tail ∧ bracket.closes (Char.ofUInt8 b) = false)
    (hKey : skipKey bracket start = .ok valued) (hValue : SkipsIn n .value [] valued next)
    (hRest : SkipsIn m (.next true) [bracket] next rest) :
    SkipsIn (m + n + 1) (.next !first) [bracket] bs rest := by
  intro rounds brackets
  rw [← hRest rounds brackets, ← Nat.add_assoc, List.singleton_append,
    hSeparated.skipRounds_next hOpen, hKey, ok_bind, ← Nat.add_assoc]
  exact hValue (rounds + m) (bracket :: brackets)

namespace Tree

def Opens : Tree → Char → Prop
  | null, c => c = 'n'
  | boolean true, c => c = 't'
  | boolean false, c => c = 'f'
  | number _, c => c = '-' ∨ c.isDigit = true
  | tooLarge, c => c = '-' ∨ c.isDigit = true
  | string _, c => c = '"'
  | noText, c => c = '"'
  | list _, c => c = '['
  | object _, c => c = '\x7b'

theorem At.opens {t : Tree} {bs rest : List UInt8} (h : t.At bs rest) :
    ∃ b tail, dropSpace bs = b :: tail ∧ t.Opens (Char.ofUInt8 b) := by
  have mark {c : Char} {inner : List UInt8} (hMark : MarkAt c bs inner) :
      ∃ b tail, dropSpace bs = b :: tail ∧ Char.ofUInt8 b = c := by
    obtain ⟨b, hDrop, hChar⟩ := hMark
    exact ⟨b, inner, hDrop, hChar⟩
  match t, h with
  | null, ⟨_, hMark, _⟩ => exact mark hMark
  | boolean true, ⟨_, hMark, _⟩ => exact mark hMark
  | boolean false, ⟨_, hMark, _⟩ => exact mark hMark
  | number _, h => exact NumberAt.opens h
  | tooLarge, ⟨_, _, hDigits, _⟩ => exact hDigits.opens
  | string _, ⟨_, hMark, _⟩ => exact mark hMark
  | noText, ⟨_, _, hMark, _⟩ => exact mark hMark
  | list _, ⟨_, hMark, _⟩ => exact mark hMark
  | object _, ⟨_, hMark, _⟩ => exact mark hMark

theorem Opens.not_closes {t : Tree} {c : Char} (h : t.Opens c) : Bracket.list.closes c = false := by
  refine decide_eq_false ?_
  rintro rfl
  match t, h with
  | number _, h => exact Or.elim h (by decide) (by decide)
  | tooLarge, h => exact Or.elim h (by decide) (by decide)

theorem Opens.of_quote {t : Tree} (h : t.Opens '"') : (∃ s, t = .string s) ∨ t = .noText := by
  match t, h with
  | string s, _ => exact .inl ⟨s, rfl⟩
  | noText, _ => exact .inr rfl
  | number _, h => exact Or.elim h (fun h => absurd h (by decide)) (fun h => absurd h (by decide))
  | tooLarge, h => exact Or.elim h (fun h => absurd h (by decide)) (fun h => absurd h (by decide))

theorem Opens.of_digit {t : Tree} {c : Char} (h : t.Opens c) (hc : c = '-' ∨ c.isDigit = true) :
    (∃ n, t = .number n) ∨ t = .tooLarge := by
  match t, h with
  | number n, _ => exact .inl ⟨n, rfl⟩
  | tooLarge, _ => exact .inr rfl
  | null, rfl => exact absurd hc (by decide)
  | boolean true, rfl => exact absurd hc (by decide)
  | boolean false, rfl => exact absurd hc (by decide)
  | string _, rfl => exact absurd hc (by decide)
  | noText, rfl => exact absurd hc (by decide)
  | list _, rfl => exact absurd hc (by decide)
  | object _, rfl => exact absurd hc (by decide)

theorem Opens.of_brace {t : Tree} (h : t.Opens '\x7b') : ∃ members, t = .object members := by
  match t, h with
  | object members, _ => exact ⟨members, rfl⟩
  | number _, h => exact Or.elim h (fun h => absurd h (by decide)) (fun h => absurd h (by decide))
  | tooLarge, h => exact Or.elim h (fun h => absurd h (by decide)) (fun h => absurd h (by decide))

theorem skipKey_object {name : String} {start named valued : List UInt8}
    (hName : StringAt name start named) (hColon : MarkAt ':' named valued) :
    skipKey .object start = .ok valued := by
  obtain ⟨inner, ⟨b, hDrop, hQuote⟩, hString⟩ := hName
  obtain ⟨colon, hColonDrop, hColon⟩ := hColon
  simp [skipKey, hDrop, hQuote, skipString_of_scanString hString, hColonDrop, hColon, ok_bind, pure,
    Except.pure]

mutual

/-- A tree is skipped in fewer than two rounds for each of its bytes. -/
theorem At.skipsIn : {t : Tree} → {bs rest : List UInt8} → t.At bs rest →
    ∃ n, n + 2 * rest.length < 2 * bs.length ∧ SkipsIn n .value [] bs rest
  | .null, _, _, h => by
    have hLength := WordAt.length_lt h
    exact ⟨1, by omega, WordAt.skipsIn h (by simp)⟩
  | .boolean true, _, _, h => by
    have hLength := WordAt.length_lt h
    exact ⟨1, by omega, WordAt.skipsIn h (by simp)⟩
  | .boolean false, _, _, h => by
    have hLength := WordAt.length_lt h
    exact ⟨1, by omega, WordAt.skipsIn h (by simp)⟩
  | .number n, bs, rest, h => by
    have hLength : rest.length < bs.length := NumberAt.length_lt h
    obtain ⟨d, hDigits, -⟩ := numberAt_iff.mp h
    exact ⟨1, by omega, hDigits.skipsIn⟩
  | .tooLarge, _, _, ⟨_, _, hDigits, _⟩ => by
    have hLength := hDigits.length_lt
    exact ⟨1, by omega, hDigits.skipsIn⟩
  | .string _, bs, rest, h => by
    have hLength : rest.length < bs.length := StringAt.length_lt h
    obtain ⟨inner, hMark, hString⟩ := h
    exact ⟨1, by omega, skipsIn_string hMark (skipString_of_scanString hString)⟩
  | .noText, _, _, ⟨_, _, hMark, hString, _⟩ => by
    have hMarkLength := hMark.length_lt
    have hLength := length_of_skipString hString
    exact ⟨1, by omega, skipsIn_string hMark hString⟩
  | .list _, _, _, ⟨_, hMark, hItems⟩ => by
    obtain ⟨n, hRounds, hSkips⟩ := ItemsAt.skipsIn hItems
    have hLength := hMark.length_lt
    exact ⟨n + 1, by omega, hMark.skipsIn (by simp) hSkips⟩
  | .object _, _, _, ⟨_, hMark, hMembers⟩ => by
    obtain ⟨n, hRounds, hSkips⟩ := MembersAt.skipsIn hMembers
    have hLength := hMark.length_lt
    exact ⟨n + 1, by omega, hMark.skipsIn (by simp) hSkips⟩

theorem ItemsAt.skipsIn : {items : List Tree} → {first : Bool} → {bs rest : List UInt8} →
    ItemsAt first items bs rest →
    ∃ n, n + 2 * rest.length ≤ 2 * bs.length ∧ SkipsIn n (.next !first) [.list] bs rest
  | [], first, bs, rest, h => by
    have hLength : rest.length < bs.length := MarkAt.length_lt h
    exact ⟨1, by omega, MarkAt.skipRounds_next h rfl _⟩
  | _ :: _, _, _, _, ⟨_, _, hSeparated, hItem, hItems⟩ => by
    obtain ⟨n, hFirst, hValue⟩ := At.skipsIn hItem
    obtain ⟨m, hRounds, hRest⟩ := ItemsAt.skipsIn hItems
    obtain ⟨b, tail, hDrop, hOpens⟩ := hItem.opens
    have hStart := hSeparated.length_le
    exact ⟨m + n + 1, by omega,
      .part hSeparated ⟨b, tail, hDrop, hOpens.not_closes⟩ rfl hValue hRest⟩

theorem MembersAt.skipsIn : {members : List (String × Tree)} → {first : Bool} →
    {bs rest : List UInt8} → MembersAt first members bs rest →
    ∃ n, n + 2 * rest.length ≤ 2 * bs.length ∧ SkipsIn n (.next !first) [.object] bs rest
  | [], first, bs, rest, h => by
    have hLength : rest.length < bs.length := MarkAt.length_lt h
    exact ⟨1, by omega, MarkAt.skipRounds_next h rfl _⟩
  | (_, _) :: _, _, _, _, ⟨_, _, _, _, hSeparated, hName, hColon, hValue, hMembers⟩ => by
    obtain ⟨n, hFirst, hValue⟩ := At.skipsIn hValue
    obtain ⟨m, hRounds, hRest⟩ := MembersAt.skipsIn hMembers
    have hStart := hSeparated.length_le
    have hNamed := hName.length_lt
    have hValued := hColon.length_lt
    exact ⟨m + n + 1, by omega,
      .part hSeparated hName.opens (skipKey_object hName hColon) hValue hRest⟩

end

theorem At.length_lt {t : Tree} {bs rest : List UInt8} (h : t.At bs rest) :
    rest.length < bs.length := by
  obtain ⟨n, hRounds, -⟩ := h.skipsIn
  omega

theorem MembersAt.length_lt {members : List (String × Tree)} {first : Bool} {bs rest : List UInt8}
    (h : MembersAt first members bs rest) : members.length < bs.length := by
  induction members generalizing first bs with
  | nil => exact Nat.zero_lt_of_lt (MarkAt.length_lt h)
  | cons m members ih =>
    obtain ⟨start, named, valued, next, hSeparated, hName, hColon, hValue, hMembers⟩ := h
    have hStart := hSeparated.length_le
    have hNamed := hName.length_lt
    have hValued := hColon.length_lt
    have hNext := hValue.length_lt
    have hRest := ih hMembers
    rw [List.length_cons]
    omega

theorem At.skipValue {t : Tree} {bs rest : List UInt8} (h : t.At bs rest) :
    Json.skipValue bs = .ok rest := by
  obtain ⟨n, hRounds, hSkips⟩ := h.skipsIn
  have hEnough : 2 * bs.length + 2 = (2 * bs.length + 1 - n) + 1 + n := by omega
  rw [Json.skipValue, hEnough]
  exact hSkips (2 * bs.length + 1 - n + 1) []

end Tree

end Diaporama.Json
