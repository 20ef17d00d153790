import Diaporama.Json.Record
import Diaporama.Proofs.Json.Reading
import Mathlib.Data.List.Pairwise
import Mathlib.Data.List.Perm.Basic

/-!
# Records from objects

A record does not depend on the order of the members it is read from. Each member belongs to one
field and changes the draft in its own way; where no two of them touch the same field, every order
of them comes to the same draft.
-/

namespace Diaporama.Json

variable {σ α β : Type}

/-- A member as a record takes it up: its field and what it does to a draft. -/
structure Record.Entry (shape : Record σ α) where
  name : String
  value : Value
  field : RecordField σ
  put : σ → σ
  named : shape.field? name = some field
  delivers : ∀ s, Delivers (field.read s) value (put s)

namespace Record.Entry

variable {shape : Record σ α}

def member (p : Entry shape) : String × Value :=
  (p.name, p.value)

theorem field_mem (p : Entry shape) : p.field ∈ shape.fields :=
  List.mem_of_find?_eq_some p.named

def of {get : σ → Option β} {put : σ → β → σ} {r : Reader β} {field : String}
    {aliases : List String} {isRequired : Bool} (name : String) (value : Value) (b : β)
    (hNamed : shape.field? name = some (.of field aliases isRequired r get put))
    (hDelivers : Delivers r value b) : Entry shape where
  name := name
  value := value
  field := .of field aliases isRequired r get put
  put s := put s b
  named := hNamed
  delivers s _ _ hText := (hDelivers hText).bind (.pure (put s b) _)

/-- Two members that do not get in each other's way. -/
structure Apart (p q : Entry shape) : Prop where
  left : ∀ s, p.field.isGiven (q.put s) = p.field.isGiven s
  right : ∀ s, q.field.isGiven (p.put s) = q.field.isGiven s
  swap : ∀ s, p.put (q.put s) = q.put (p.put s)

instance : Std.Symm (@Apart σ α shape) where
  symm _ _ h := ⟨h.right, h.left, fun s => (h.swap s).symm⟩

def putAll (entries : List (Entry shape)) (s : σ) : σ :=
  entries.foldl (fun s p => p.put s) s

theorem putAll_perm {entries others : List (Entry shape)} (hPerm : entries.Perm others)
    (hApart : entries.Pairwise Apart) (s : σ) : putAll entries s = putAll others s := by
  refine hPerm.foldl_eq' ?_ s
  intro p hp q hq s
  by_cases hSame : p = q
  · rw [hSame]
  · exact (hApart.forall hq hp (Ne.symm hSame)).swap s

/-- Members that are some entries in another order are entries themselves. -/
theorem exists_of_perm {entries : List (Entry shape)} {members : List (String × Value)}
    (h : members.Perm (entries.map member)) :
    ∃ others : List (Entry shape), others.map member = members ∧ others.Perm entries := by
  have hForall : List.Forall₂ (fun m p => member p = m) (entries.map member) entries := by
    rw [List.forall₂_map_left_iff, List.forall₂_same]
    exact fun _ _ => rfl
  obtain ⟨others, hOthers, hPerm⟩ := List.perm_comp_forall₂ h hForall
  refine ⟨others, ?_, hPerm⟩
  rw [← List.forall₂_eq_eq_eq, List.forall₂_map_left_iff]
  exact hOthers.flip

end Record.Entry

/-! ## Reading members -/

theorem SeparatedAt.hasMember {first : Bool} {name : String} {bs start named : List UInt8}
    (hSeparated : SeparatedAt first bs start) (hName : StringAt name start named) :
    Reads (Reader.hasMember first) bs true (dropSpace start) := by
  obtain ⟨inner, hMark, -⟩ := hName
  cases first with
  | true =>
    cases (show start = bs from hSeparated)
    exact hMark.peek.bind (.pure true _)
  | false =>
    have hComma : MarkAt ',' bs start := hSeparated
    exact hComma.peek.bind (hComma.skip.bind (hMark.peek.bind (.pure true _)))

namespace Record

variable {shape : Record σ α}

open Entry

/-- The members are read up to the brace, which is all that is left to drop. -/
theorem reads_members {entries : List (Entry shape)} (hApart : entries.Pairwise Apart)
    {first : Bool} {s : σ} {bs rest : List UInt8} {limit : Nat}
    (hFresh : ∀ p ∈ entries, p.field.isGiven s = false)
    (hMembers : Value.MembersAt first (entries.map member) bs rest)
    (hLimit : entries.length < limit) :
    ∃ mid, Reads (shape.members first s limit) bs (putAll entries s) mid ∧
      Reads Reader.skip mid () rest := by
  induction entries generalizing first s bs limit with
  | nil =>
    obtain ⟨limit, rfl⟩ := Nat.exists_eq_succ_of_ne_zero (Nat.ne_zero_of_lt hLimit)
    have hEnd : MarkAt '\x7d' bs rest := hMembers
    have hNone : Reads (Reader.hasMember first) bs false (dropSpace bs) :=
      hEnd.peek.bind (.pure false _)
    exact ⟨dropSpace bs, hNone.bind (.pure s _), hEnd.skip⟩
  | cons p entries ih =>
    obtain ⟨limit, rfl⟩ := Nat.exists_eq_succ_of_ne_zero (Nat.ne_zero_of_lt hLimit)
    obtain ⟨start, named, valued, next, hSeparated, hName, hColon, hValue, hMembers⟩ := hMembers
    obtain ⟨hFirst, hApart⟩ := List.pairwise_cons.mp hApart
    -- the fields of the members that follow are still free, for none of them is that of `p`
    have hFresh' : ∀ q ∈ entries, q.field.isGiven (p.put s) = false := by
      intro q hq
      rw [(hFirst q hq).right]
      exact hFresh q (List.mem_cons_of_mem p hq)
    obtain ⟨mid, hRead, hEnd⟩ :=
      ih hApart hFresh' hMembers (Nat.lt_of_succ_lt_succ hLimit)
    refine ⟨mid, ?_, hEnd⟩
    refine (hSeparated.hasMember hName).bind (hName.key.bind ?_)
    rw [p.named]
    simp only [hFresh p List.mem_cons_self]
    exact hColon.colon.bind ((p.delivers s hValue).bind hRead)

section

variable (entries : List (Entry shape)) {members : List (String × Value)}

/-- The members of an object come to the same draft in whatever order they stand. -/
theorem reads_draft (hPerm : members.Perm (entries.map member)) (hApart : entries.Pairwise Apart)
    (hFresh : ∀ f ∈ shape.fields, f.isGiven shape.draft = false) {bs rest : List UInt8}
    (hText : (Value.object members).At bs rest) :
    ∃ inner mid, MarkAt '\x7b' bs inner ∧
      Reads (shape.members true shape.draft (inner.length + 1)) inner
        (putAll entries shape.draft) mid ∧
      Reads Reader.skip mid () rest := by
  obtain ⟨inner, hMark, hMembers⟩ := hText
  obtain ⟨others, rfl, hOthers⟩ := exists_of_perm hPerm
  have hLength := Value.MembersAt.length_lt hMembers
  rw [List.length_map] at hLength
  have hLimit : others.length < inner.length + 1 := by omega
  have hApart' : others.Pairwise Apart := hApart.perm hOthers.symm fun h => symm h
  have hFresh' : ∀ p ∈ others, p.field.isGiven shape.draft = false :=
    fun p _ => hFresh p.field p.field_mem
  obtain ⟨mid, hRead, hEnd⟩ := reads_members hApart' hFresh' hMembers hLimit
  rw [putAll_perm hOthers hApart'] at hRead
  exact ⟨inner, mid, hMark, hRead, hEnd⟩

theorem delivers_reader {a : α} (hPerm : members.Perm (entries.map member))
    (hApart : entries.Pairwise Apart) (hFresh : ∀ f ∈ shape.fields, f.isGiven shape.draft = false)
    (hFinish : shape.finish (putAll entries shape.draft) = .ok a) :
    Delivers shape.reader (.object members) a := by
  intro bs rest hText
  obtain ⟨inner, mid, hMark, hRead, hEnd⟩ := reads_draft entries hPerm hApart hFresh hText
  refine hMark.start.bind (hMark.skip.bind ((Reads.rest inner).bind (hRead.bind ?_)))
  rw [hFinish]
  exact (Reads.pure a mid).bind (hEnd.bind (.pure a rest))

/-- A whole text is read as what its draft is finished to, be it a record or a missing field. -/
theorem result_read {text : ByteArray} (hPerm : members.Perm (entries.map member))
    (hApart : entries.Pairwise Apart) (hFresh : ∀ f ∈ shape.fields, f.isGiven shape.draft = false)
    (hText : (Value.object members).IsText text) :
    (Json.read shape.reader text).result = shape.finish (putAll entries shape.draft) := by
  cases hFinish : shape.finish (putAll entries shape.draft) with
  | ok a =>
    exact Json.result_read (delivers_reader entries hPerm hApart hFresh hFinish) hText
  | error fault =>
    obtain ⟨rest, hAt, -⟩ := hText
    obtain ⟨inner, mid, hMark, hRead, -⟩ := reads_draft entries hPerm hApart hFresh hAt
    apply result_read_of_stops
    refine hMark.start.bind_stops (hMark.skip.bind_stops ((Reads.rest inner).bind_stops
      (hRead.bind_stops (Stops.bind ?_ _))))
    rw [hFinish]
    exact .throw fault mid

end

end Record

end Diaporama.Json
