import Diaporama.Proofs.Json.Reading
import Diaporama.Proofs.Json.Tree

/-!
# Which trees a reader takes

A reader decides a tree if it gives what the tree means to it on every text of the tree, and ends
with a fault where the tree means nothing to it.
-/

namespace Diaporama.Json

variable {α β : Type}

namespace Tree

def Selects (select : String → β) (t : Tree) (b : β) : Prop :=
  ∃ s, t = .string s ∧ select s = b

def IsReal (t : Tree) (x : Float) : Prop :=
  ∃ n, t = .number n ∧ n.toFloat = x

def IsOctet (t : Tree) (n : UInt8) : Prop :=
  t = .number (.natural n.toNat)

def IsString (t : Tree) (s : String) : Prop :=
  t = .string s

end Tree

def Decides (r : Reader α) (t : Tree) (Means : α → Prop) : Prop :=
  ∀ ⦃bs rest : List UInt8⦄, t.At bs rest → Settles r bs rest Means

namespace Decides

variable {r : Reader α} {t : Tree} {Means : α → Prop}

theorem congr {Means' : α → Prop} (h : Decides r t Means) (hMeans : ∀ a, Means a ↔ Means' a) :
    Decides r t Means' :=
  fun _ _ hText => (h hText).congr hMeans

theorem bind {f : α → Reader β} {Means' : β → Prop} (h : Decides r t Means)
    (hf : ∀ a, Means a → ∀ rest, Settles (f a) rest rest Means')
    (hMeans : ∀ b, Means' b → ∃ a, Means a) : Decides (r >>= f) t Means' :=
  fun _ rest hText => (h hText).bind (fun a ha => hf a ha rest) hMeans

/-- A text of the tree is read exactly as what the tree means. -/
theorem result_read {text : ByteArray} (h : Decides r t Means) (hText : t.IsText text) (a : α) :
    (Json.read r text).result = .ok a ↔ Means a := by
  obtain ⟨rest, hAt, hEnd⟩ := hText
  constructor
  · intro hRead
    by_cases hSome : ∃ b, Means b
    · obtain ⟨b, hb⟩ := hSome
      rw [result_read_of_reads ((h hAt).reads b hb) hEnd] at hRead
      cases hRead
      exact hb
    · obtain ⟨fault, hFault⟩ := result_read_of_refuses ((h hAt).refuses (not_exists.mp hSome))
      rw [hFault] at hRead
      cases hRead
  · intro ha
    exact result_read_of_reads ((h hAt).reads a ha) hEnd

end Decides

/-! ## Refused trees -/

theorem refuses_refuse (expected : String) (c : Char) (bs : List UInt8) :
    Refuses (Reader.refuse expected c : Reader α) bs := by
  unfold Reader.refuse
  split
  · exact .of_bind _ (fun _ => .of_bind _ fun _ => .throw _) bs
  · exact .of_bind _ (fun _ => .of_bind _ fun _ => .throw _) bs
  · exact .of_bind _ (fun _ => .of_bind _ fun _ => .throw _) bs
  · exact .of_bind _ (fun _ => .of_bind _ fun _ => .throw _) bs
  · exact .throw _ bs
  · exact .throw _ bs
  · split
    · exact .of_bind _ (fun _ => .throw _) bs
    · exact .throw _ bs

theorem refuses_scan {f : List UInt8 → Except SyntaxFault (Scanned α)} {cause : SyntaxFault}
    {bs : List UInt8} (h : f bs = .error cause) : Refuses (Reader.scan f) bs := by
  refine (Reads.rest bs).bind_refuses ?_
  rw [h]
  exact Refuses.bind (.throw _ bs) _

/-! ## Strings and numbers -/

theorem decides_text (expected : String) (t : Tree) :
    Decides (Reader.text expected) t t.IsString := by
  intro bs rest hText
  obtain ⟨b, tail, hDrop, hOpens⟩ := hText.opens
  by_cases hQuote : Char.ofUInt8 b = '"'
  · rw [hQuote] at hOpens
    obtain ⟨s, rfl⟩ | rfl := hOpens.of_quote
    · constructor
      · rintro _ ⟨⟩
        exact delivers_text expected s hText
      · intro hNone
        exact absurd rfl (hNone s)
    · obtain ⟨inner, cause, hMark, -, hScan⟩ := hText
      refine ⟨nofun, fun _ => ?_⟩
      exact hMark.start.bind_refuses (hMark.skip.bind_refuses (refuses_scan hScan))
  · constructor
    · rintro s rfl
      exact absurd hOpens hQuote
    · intro _
      refine (Reads.start hDrop).bind_refuses ?_
      rw [if_neg hQuote]
      exact refuses_refuse expected _ _

theorem decides_numberOf (expected : String) (t : Tree) :
    Decides (Reader.numberOf expected) t (t = .number ·) := by
  intro bs rest hText
  obtain ⟨b, tail, hDrop, hOpens⟩ := hText.opens
  by_cases hDigit : Char.ofUInt8 b = '-' ∨ (Char.ofUInt8 b).isDigit = true
  · obtain ⟨n, rfl⟩ | rfl := hOpens.of_digit hDigit
    · obtain ⟨d, hDigits, hNumber⟩ := numberAt_iff.mp hText
      refine (hDigits.settles_numberOf expected).congr fun m => ?_
      rw [hNumber, Except.ok.injEq, Tree.number.injEq]
    · obtain ⟨d, cause, hDigits, hLarge⟩ := hText
      refine (hDigits.settles_numberOf expected).congr fun m => ?_
      rw [hLarge]
      exact ⟨nofun, nofun⟩
  · constructor
    · rintro n rfl
      exact absurd hOpens hDigit
    · intro _
      refine (Reads.start hDrop).bind_refuses ?_
      rw [if_neg (by simpa using hDigit)]
      exact refuses_refuse expected _ _

theorem decides_real (t : Tree) :
    Decides Reader.real t t.IsReal := by
  intro bs rest hText
  refine (decides_numberOf "f64" t hText).bind_reads fun n => ?_
  cases n <;> exact .pure _ rest

theorem decides_below (limit : Nat) (expected : String) (t : Tree) :
    Decides (Reader.below limit expected) t fun k => t = .number (.natural k) ∧ k < limit := by
  refine (decides_numberOf expected t).bind (fun n hn rest => ?_) fun k ⟨hk, _⟩ => ⟨_, hk⟩
  subst hn
  cases n with
  | natural k =>
    by_cases hLimit : k < limit
    · simp only [if_pos hLimit]
      exact (Settles.pure k rest).congr fun m => by simpa using fun h => h ▸ hLimit
    · simp only [if_neg hLimit]
      exact (Settles.throw _ rest rest).congr fun m => by simpa using fun h => h ▸ not_lt.mp hLimit
  | negative k => exact (Settles.throw _ rest rest).congr fun m => by simp
  | real x => exact (Settles.throw _ rest rest).congr fun m => by simp

theorem decides_octet (t : Tree) :
    Decides Reader.octet t t.IsOctet := by
  refine (decides_below UInt8.size "u8" t).bind (fun n hn rest => ?_) fun c hc => ?_
  · obtain ⟨rfl, hSize⟩ := hn
    refine (Settles.pure n.toUInt8 rest).congr fun c => ?_
    rw [Tree.IsOctet, Tree.number.injEq, Number.natural.injEq]
    constructor
    · rintro rfl
      exact (Nat.mod_eq_of_lt hSize).symm
    · rintro rfl
      exact UInt8.ofNat_toNat
  · exact ⟨c.toNat, hc, c.toNat_lt⟩

/-- Only names are taken, where an object is not asked about. -/
theorem decides_variant (names : List String) (ofName? : String → Option α) {t : Tree}
    (hPlain : ∀ members, t ≠ .object members) :
    Decides (Reader.variant names ofName?) t fun a => ∃ s, t = .string s ∧ ofName? s = some a := by
  intro bs rest hText
  obtain ⟨b, tail, hDrop, hOpens⟩ := hText.opens
  refine (Reads.start hDrop).bind_settles ?_
  by_cases hQuote : Char.ofUInt8 b = '"'
  · rw [if_pos hQuote]
    rw [hQuote] at hOpens
    obtain ⟨s, rfl⟩ | rfl := hOpens.of_quote
    · refine (StringAt.key hText).bind_settles ?_
      cases hName : ofName? s with
      | none =>
        simp only [hName]
        exact (Settles.throw _ rest rest).congr fun a => by simp [hName]
      | some a =>
        simp only [hName]
        exact (Settles.pure a rest).congr fun a' => by simp [hName]
    · obtain ⟨inner, cause, hMark, -, hScan⟩ := hText
      refine ⟨nofun, fun _ => ?_⟩
      exact Refuses.bind (hMark.skip.bind_refuses (refuses_scan hScan)) _
  · have hBrace : Char.ofUInt8 b ≠ '\x7b' := by
      intro hBrace
      rw [hBrace] at hOpens
      obtain ⟨members, rfl⟩ := hOpens.of_brace
      exact hPlain members rfl
    rw [if_neg hQuote, if_neg hBrace]
    refine (Settles.throw _ _ rest).congr fun a => ⟨False.elim, ?_⟩
    rintro ⟨s, rfl, -⟩
    exact hQuote hOpens

end Diaporama.Json
