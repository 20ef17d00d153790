import Diaporama.Proofs.Json.Deciding
import Diaporama.Proofs.Json.Members

/-!
# Records whose fields may all be missing

Such a record is read from any object that gives no field twice and gives each field a value of its
kind. A draft is filled slot by slot; members that belong to no slot are skipped, and what stands in
a slot depends on the members with its names alone.
-/

namespace Diaporama.Json

variable {σ α β : Type}

/-- What the members with one of the names hold, in the order of the text. -/
def given (names : List String) (members : List (String × Tree)) : List Tree :=
  (members.filter fun m => m.1 ∈ names).map Prod.snd

def Gives (names : List String) (Means : Tree → β → Prop) (members : List (String × Tree))
    (value : Option β) : Prop :=
  given names members = [] ∧ value = none ∨
    ∃ t b, given names members = [t] ∧ Means t b ∧ value = some b

section

variable {names : List String} {name : String} {t : Tree} {members : List (String × Tree)}

theorem given_cons_of_mem (h : name ∈ names) :
    given names ((name, t) :: members) = t :: given names members := by
  rw [given, List.filter_cons_of_pos (by simpa using h), List.map_cons, given]

theorem given_cons_of_notMem (h : name ∉ names) :
    given names ((name, t) :: members) = given names members := by
  rw [given, List.filter_cons_of_neg (by simpa using h), given]

end

/-- A field is as usual if nothing is given for it, and else what the one value given means. -/
inductive Overlaid (names : List String) (Means : Tree → β → Prop) (usual : β)
    (members : List (String × Tree)) : β → Prop
  | absent (h : given names members = []) : Overlaid names Means usual members usual
  | present {t : Tree} {b : β} (h : given names members = [t]) (hMeans : Means t b) :
      Overlaid names Means usual members b

theorem overlaid_iff {names : List String} {Means : Tree → β → Prop} {usual b : β}
    {members : List (String × Tree)} : Overlaid names Means usual members b ↔
      ∃ value, Gives names Means members value ∧ value.getD usual = b := by
  constructor
  · rintro (h | ⟨h, hMeans⟩)
    · exact ⟨none, .inl ⟨h, rfl⟩, rfl⟩
    · exact ⟨some b, .inr ⟨_, b, h, hMeans, rfl⟩, rfl⟩
  · rintro ⟨_, ⟨h, rfl⟩ | ⟨t, b', h, hMeans, rfl⟩, rfl⟩
    · exact .absent h
    · exact .present h hMeans

/-- Nothing given for any of the fields tells one object from the other. -/
def Alike (fields : List (List String)) (members members' : List (String × Tree)) : Prop :=
  ∀ names ∈ fields, (given names members).Perm (given names members')

theorem Alike.symm {fields : List (List String)} {members members' : List (String × Tree)}
    (h : Alike fields members members') : Alike fields members' members :=
  fun names hNames => (h names hNames).symm

theorem Overlaid.of_perm {names : List String} {Means : Tree → β → Prop} {usual b : β}
    {members members' : List (String × Tree)} (h : Overlaid names Means usual members b)
    (hPerm : (given names members).Perm (given names members')) :
    Overlaid names Means usual members' b := by
  cases h with
  | absent h =>
    rw [h, List.nil_perm] at hPerm
    exact .absent hPerm
  | present h hMeans =>
    rw [h, List.singleton_perm] at hPerm
    exact .present hPerm.symm hMeans

theorem Overlaid.of_forall₂ {names : List String} {Means : Tree → β → Prop} {usual b : β}
    {members members' : List (String × Tree)} {Same : Tree → Tree → Prop}
    (h : Overlaid names Means usual members b)
    (hSame : List.Forall₂ Same (given names members) (given names members'))
    (hMeans : ∀ t t' b, Same t t' → Means t b → Means t' b) :
    Overlaid names Means usual members' b := by
  cases h with
  | absent h =>
    rw [h, List.forall₂_nil_left_iff] at hSame
    exact .absent hSame
  | present h hMean =>
    rw [h, List.forall₂_cons_left_iff] at hSame
    obtain ⟨t', _, hTree, hNil, h'⟩ := hSame
    rw [List.forall₂_nil_left_iff.mp hNil] at h'
    exact .present h' (hMeans _ t' b hTree hMean)

/-- A part of a record, its place in the draft, and the field it is read from. -/
structure FieldSlot (σ α : Type) where
  Kind : Type
  name : String
  aliases : List String
  reader : Reader Kind
  get : σ → Option Kind
  put : σ → Kind → σ
  value : α → Kind
  usual : Kind
  Means : Tree → Kind → Prop

namespace FieldSlot

def field (p : FieldSlot σ α) : RecordField σ :=
  .of p.name p.aliases false p.reader p.get p.put

def names (p : FieldSlot σ α) : List String :=
  p.name :: p.aliases

theorem answersTo_field (p : FieldSlot σ α) (key : String) :
    p.field.answersTo key = decide (key ∈ p.names) := by
  simp [field, names, RecordField.of, RecordField.answersTo, Bool.decide_or]

theorem settles_read {p : FieldSlot σ α} {t : Tree} {bs rest : List UInt8} (s : σ)
    (h : Settles p.reader bs rest (p.Means t)) :
    Settles (p.field.read s) bs rest fun s' => ∃ b, p.Means t b ∧ p.put s b = s' :=
  h.bind_reads fun b => .pure (p.put s b) rest

/-- Two slots with different names that do not touch each other. -/
structure Apart (p q : FieldSlot σ α) : Prop where
  names : ∀ name ∈ p.names, name ∉ q.names
  left : ∀ s b, p.get (q.put s b) = p.get s
  right : ∀ s b, q.get (p.put s b) = q.get s

instance : Std.Symm (@Apart σ α) where
  symm _ _ h := ⟨fun name hq hp => h.names name hp hq, h.right, h.left⟩

/-- The slot of `s` comes to that of `d`: it stays, or it is free and filled once. -/
def Fills (p : FieldSlot σ α) (s : σ) (members : List (String × Tree)) (d : σ) : Prop :=
  given p.names members = [] ∧ p.get d = p.get s ∨
    p.get s = none ∧ ∃ t b, given p.names members = [t] ∧ p.Means t b ∧ p.get d = some b

end FieldSlot

/-- The fields of a record as slots that make up its drafts. -/
structure Record.Layout (shape : Record σ α) where
  slots : List (FieldSlot σ α)
  fields_eq : shape.fields = slots.map FieldSlot.field
  apart : slots.Pairwise FieldSlot.Apart
  get_put : ∀ p ∈ slots, ∀ s b, p.get (p.put s b) = some b
  fresh : ∀ p ∈ slots, p.get shape.draft = none
  draft_ext : ∀ s s', (∀ p ∈ slots, p.get s = p.get s') → s = s'
  finish : σ → α
  finish_eq : ∀ s, shape.finish s = .ok (finish s)
  value_finish : ∀ p ∈ slots, ∀ s, p.value (finish s) = (p.get s).getD p.usual
  value_ext : ∀ a a', (∀ p ∈ slots, p.value a = p.value a') → a = a'

namespace Record.Layout

variable {shape : Record σ α} (L : Record.Layout shape)

def Fills (s : σ) (members : List (String × Tree)) (d : σ) : Prop :=
  ∀ p ∈ L.slots, p.Fills s members d

theorem field?_eq (key : String) :
    shape.field? key = (L.slots.find? fun p => key ∈ p.names).map FieldSlot.field := by
  unfold Record.field?
  rw [L.fields_eq, List.find?_map]
  congr 1
  exact congrArg (List.find? · L.slots) (funext fun p => p.answersTo_field key)

variable {L} {s d : σ} {name : String} {t : Tree} {members : List (String × Tree)} {p : FieldSlot σ α}

theorem fills_nil : L.Fills s [] d ↔ s = d := by
  constructor
  · intro h
    refine L.draft_ext s d fun p hp => ?_
    obtain ⟨-, hSame⟩ | ⟨-, t, b, hGiven, -⟩ := h p hp
    · exact hSame.symm
    · cases hGiven
  · rintro rfl p -
    exact .inl ⟨rfl, rfl⟩

theorem fills_cons_of_unknown (h : ∀ p ∈ L.slots, name ∉ p.names) :
    L.Fills s ((name, t) :: members) d ↔ L.Fills s members d := by
  refine forall₂_congr fun p hp => ?_
  rw [FieldSlot.Fills, given_cons_of_notMem (h p hp), FieldSlot.Fills]

theorem not_fills_of_full (hp : p ∈ L.slots) (hName : name ∈ p.names) (hFull : p.get s ≠ none) :
    ¬ L.Fills s ((name, t) :: members) d := by
  intro h
  obtain ⟨hGiven, -⟩ | ⟨hFree, -⟩ := h p hp
  · rw [given_cons_of_mem hName] at hGiven
    cases hGiven
  · exact hFull hFree

theorem exists_means_of_fills (hp : p ∈ L.slots) (hName : name ∈ p.names)
    (h : L.Fills s ((name, t) :: members) d) : ∃ b, p.Means t b := by
  obtain ⟨hGiven, -⟩ | ⟨-, t', b, hGiven, hMeans, -⟩ := h p hp
  · rw [given_cons_of_mem hName] at hGiven
    cases hGiven
  · rw [given_cons_of_mem hName] at hGiven
    obtain ⟨rfl, -⟩ := List.cons.inj hGiven
    exact ⟨b, hMeans⟩

/-- A member of a free slot fills it, and the others go on as if it were not there. -/
theorem fills_cons_of_free {b : p.Kind} (hp : p ∈ L.slots) (hName : name ∈ p.names)
    (hFree : p.get s = none) (hMeans : p.Means t b) (hUnique : ∀ b', p.Means t b' → b' = b) :
    L.Fills s ((name, t) :: members) d ↔ L.Fills (p.put s b) members d := by
  refine forall₂_congr fun q hq => ?_
  by_cases hSame : q = p
  · subst hSame
    rw [FieldSlot.Fills, given_cons_of_mem hName, FieldSlot.Fills, L.get_put q hq]
    constructor
    · rintro (⟨⟨⟩, -⟩ | ⟨-, t', b', hGiven, hMeans', hValue⟩)
      obtain ⟨rfl, hRest⟩ := List.cons.inj hGiven
      rw [hUnique b' hMeans'] at hValue
      exact .inl ⟨hRest, hValue⟩
    · rintro (⟨hGiven, hValue⟩ | ⟨⟨⟩, -⟩)
      exact .inr ⟨hFree, t, b, by rw [hGiven], hMeans, hValue⟩
  · have hApart : FieldSlot.Apart q p := L.apart.forall hq hp hSame
    have hOther : name ∉ q.names := fun hq' => hApart.names name hq' hName
    rw [FieldSlot.Fills, given_cons_of_notMem hOther, FieldSlot.Fills, hApart.left]

/-- Members are read to the draft they fill, up to the brace, and to none if they fill none. -/
theorem settles_members {first : Bool} {bs rest : List UInt8} {limit : Nat}
    (hDecides : ∀ p ∈ L.slots, ∀ t ∈ given p.names members, Decides p.reader t (p.Means t))
    (hMembers : Tree.MembersAt first members bs rest) (hLimit : members.length < limit) :
    ∃ mid, Reads Reader.skip mid () rest ∧
      ∀ s, Settles (shape.members first s limit) bs mid (L.Fills s members) := by
  -- the brace is where it is for every draft, so `mid` comes before the draft
  induction members generalizing first bs limit with
  | nil =>
    obtain ⟨limit, rfl⟩ := Nat.exists_eq_succ_of_ne_zero (Nat.ne_zero_of_lt hLimit)
    have hEnd : MarkAt '\x7d' bs rest := hMembers
    have hNone : Reads (Reader.hasMember first) bs false (dropSpace bs) :=
      hEnd.peek.bind (.pure false _)
    refine ⟨dropSpace bs, hEnd.skip, fun s => ?_⟩
    exact hNone.bind_settles ((Settles.pure s _).congr fun d => fills_nil.symm)
  | cons m members ih =>
    obtain ⟨name, t⟩ := m
    obtain ⟨limit, rfl⟩ := Nat.exists_eq_succ_of_ne_zero (Nat.ne_zero_of_lt hLimit)
    obtain ⟨start, named, valued, next, hSeparated, hName, hColon, hValue, hMembers⟩ := hMembers
    have hLater : ∀ p ∈ L.slots, ∀ t ∈ given p.names members,
        Decides p.reader t (p.Means t) := by
      intro p hp t' ht'
      refine hDecides p hp t' ?_
      by_cases hMine : name ∈ p.names
      · rw [given_cons_of_mem hMine]
        exact List.mem_cons_of_mem t ht'
      · rwa [given_cons_of_notMem hMine]
    obtain ⟨mid, hEnd, hRest⟩ := ih hLater hMembers (Nat.lt_of_succ_lt_succ hLimit)
    refine ⟨mid, hEnd, fun s => ?_⟩
    refine (hSeparated.hasMember hName).bind_settles (hName.key.bind_settles ?_)
    rw [L.field?_eq]
    cases hFind : L.slots.find? fun p => name ∈ p.names with
    | none =>
      have hUnknown : ∀ p ∈ L.slots, name ∉ p.names := by simpa using hFind
      refine hColon.colon.bind_settles ?_
      refine (Reads.skipping hValue.skipValue).bind_settles ((hRest s).congr fun d => ?_)
      exact (fills_cons_of_unknown hUnknown).symm
    | some p =>
      have hp : p ∈ L.slots := List.mem_of_find?_eq_some hFind
      have hMine : name ∈ p.names := by simpa using List.find?_some hFind
      simp only [Option.map_some]
      cases hSlot : p.get s with
      | some b =>
        have hGiven : p.field.isGiven s = true := by simp [FieldSlot.field, RecordField.of, hSlot]
        have hFull : p.get s ≠ none := by simp [hSlot]
        rw [if_pos hGiven]
        refine ⟨fun d hd => absurd hd (not_fills_of_full hp hMine hFull), fun _ => ?_⟩
        exact Refuses.bind (.throw _ _) _
      | none =>
        have hGiven : ¬ p.field.isGiven s = true := by simp [FieldSlot.field, RecordField.of, hSlot]
        rw [if_neg hGiven]
        refine hColon.colon.bind_settles ?_
        have hKind : Settles p.reader valued next (p.Means t) :=
          hDecides p hp t (by rw [given_cons_of_mem hMine]; exact List.mem_cons_self) hValue
        refine (FieldSlot.settles_read s hKind).bind ?_ ?_
        · rintro _ ⟨b, hb, rfl⟩
          refine (hRest (p.put s b)).congr fun d => ?_
          exact (fills_cons_of_free hp hMine hSlot hb fun b' hb' => hKind.unique hb' hb).symm
        · intro d hd
          obtain ⟨b, hb⟩ := exists_means_of_fills hp hMine hd
          exact ⟨_, b, hb, rfl⟩

theorem fills_draft_iff :
    L.Fills shape.draft members d ↔ ∀ p ∈ L.slots, Gives p.names p.Means members (p.get d) := by
  refine forall₂_congr fun p hp => ?_
  simp only [FieldSlot.Fills, Gives, L.fresh p hp, true_and]

theorem exists_draft {Q : (p : FieldSlot σ α) → Option p.Kind → Prop}
    (h : ∀ p ∈ L.slots, ∃ value, Q p value) : ∃ d, ∀ p ∈ L.slots, Q p (p.get d) := by
  -- the slots are filled one by one; those that are still to come stay free
  suffices hSome : ∀ ps : List (FieldSlot σ α), ps.Pairwise FieldSlot.Apart →
      (∀ p ∈ ps, p ∈ L.slots) → ∃ d, (∀ p ∈ ps, Q p (p.get d)) ∧
        ∀ q : FieldSlot σ α, (∀ p ∈ ps, q.Apart p) → q.get d = q.get shape.draft by
    obtain ⟨d, hd, -⟩ := hSome L.slots L.apart fun _ hp => hp
    exact ⟨d, hd⟩
  intro ps hApart hSlots
  induction ps with
  | nil => exact ⟨shape.draft, List.forall_mem_nil _, fun _ _ => rfl⟩
  | cons p ps ih =>
    obtain ⟨hFirst, hApart⟩ := List.pairwise_cons.mp hApart
    obtain ⟨hp, hSlots⟩ := List.forall_mem_cons.mp hSlots
    obtain ⟨d, hd, hFree⟩ := ih hApart hSlots
    obtain ⟨value, hValue⟩ := h p hp
    cases value with
    | none =>
      have hNone : p.get d = none := (hFree p hFirst).trans (L.fresh p hp)
      refine ⟨d, List.forall_mem_cons.mpr ⟨by rwa [hNone], hd⟩, fun q hq => ?_⟩
      exact hFree q (List.forall_mem_cons.mp hq).2
    | some b =>
      refine ⟨p.put d b, List.forall_mem_cons.mpr ⟨by rwa [L.get_put p hp], ?_⟩, ?_⟩
      · intro q hq
        rw [(hFirst q hq).right]
        exact hd q hq
      · intro q hq
        obtain ⟨hpq, hq⟩ := List.forall_mem_cons.mp hq
        rw [hpq.left]
        exact hFree q hq

/-- An object is read as the record whose every part overlays what is usual for it. -/
theorem decides_reader
    (hDecides : ∀ p ∈ L.slots, ∀ t ∈ given p.names members, Decides p.reader t (p.Means t)) :
    Decides shape.reader (.object members)
      fun a => ∀ p ∈ L.slots, Overlaid p.names p.Means p.usual members (p.value a) := by
  rintro bs rest ⟨inner, hMark, hMembers⟩
  have hLimit : members.length < inner.length + 1 := Nat.lt_succ_of_lt hMembers.length_lt
  obtain ⟨mid, hEnd, hRead⟩ := settles_members hDecides hMembers hLimit
  refine hMark.start.bind_settles (hMark.skip.bind_settles ((Reads.rest inner).bind_settles ?_))
  have hFinished : ∀ d, Reads
      (Record.ofExcept (shape.finish d) >>= fun a => Reader.skip >>= fun _ => pure a) mid
      (L.finish d) rest := by
    intro d
    rw [L.finish_eq]
    exact (Reads.pure (L.finish d) mid).bind (hEnd.bind (.pure (L.finish d) rest))
  refine ((hRead shape.draft).bind_reads hFinished).congr fun a => ?_
  simp only [fills_draft_iff]
  constructor
  · rintro ⟨d, hGives, rfl⟩ p hp
    exact overlaid_iff.mpr ⟨p.get d, hGives p hp, (L.value_finish p hp d).symm⟩
  · intro hOverlaid
    obtain ⟨d, hd⟩ := exists_draft fun p hp => overlaid_iff.mp (hOverlaid p hp)
    refine ⟨d, fun p hp => (hd p hp).1, L.value_ext _ _ fun p hp => ?_⟩
    rw [L.value_finish p hp]
    exact (hd p hp).2

end Record.Layout

end Diaporama.Json
