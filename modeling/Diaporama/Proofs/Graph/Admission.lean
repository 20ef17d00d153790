import Diaporama.Proofs.Computation
import Diaporama.Proofs.Graph.Sequence

/-!
# When a node is admitted

The tables a push reads can be left out of sight: on a graph that grew by pushes, the nodes that are
there decide whether one more is admitted. A push that is refused leaves the graph as it was, also
when the push works on it in place, so a sequence of pushes comes to the same as those of them that
went through.
-/

namespace Diaporama

variable {T : Type}

namespace Node

variable {k : Nat} {ns : List (Node T)} {n : Node T}

/-- What is asked of a new node, said of the nodes that are there. -/
structure Admissible (k : Nat) (ns : List (Node T)) (n : Node T) : Prop where
  label_new : ∀ m ∈ ns, m.label ≠ n.label
  filters_ne : n.filters ≠ []
  outputs_ne : n.outputs ≠ []
  arity : ∀ first rest, n.filters = first :: rest → n.inputs.length = first.arity
  inRange : ∀ input stream, Pad.source input stream ∈ n.inputs → input < k
  written : ∀ link, Pad.link link ∈ n.inputs → ∃ m ∈ ns, link ∈ m.outputs
  unread : ∀ link, Pad.link link ∈ n.inputs → ∀ m ∈ ns, Pad.link link ∉ m.inputs
  once : ∀ link, Pad.link link ∈ n.inputs → n.inputs.count (.link link) = 1
  outputs_nodup : n.outputs.Nodup
  outputs_new : ∀ link ∈ n.outputs, ∀ m ∈ ns, link ∉ m.outputs

theorem formed_iff : n.Formed k ↔ n.filters ≠ [] ∧ n.outputs ≠ [] ∧
    (∀ first rest, n.filters = first :: rest → n.inputs.length = first.arity) ∧
    ∀ input stream, Pad.source input stream ∈ n.inputs → input < k := by
  constructor
  · intro h
    obtain ⟨first, rest, hFilters, hArity⟩ := h.arity
    refine ⟨by simp [hFilters], h.outputs_ne, fun other others hOther => ?_, h.inRange⟩
    rw [hFilters] at hOther
    obtain ⟨rfl, -⟩ := List.cons.inj hOther
    exact hArity
  · rintro ⟨hFilters, hOutputs, hArity, hRange⟩
    obtain ⟨first, rest, h⟩ := List.exists_cons_of_ne_nil hFilters
    exact ⟨⟨first, rest, h, hArity first rest h⟩, hOutputs, hRange⟩

theorem count_reads (n : Node T) (link : String) :
    n.reads.count link = n.inputs.count (.link link) := by
  rw [reads, List.count_eq_countP, List.countP_filterMap, List.count_eq_countP]
  apply List.countP_congr
  intro pad _
  cases pad <;> simp [Pad.link?]

theorem nodup_reads_iff (n : Node T) :
    n.reads.Nodup ↔ ∀ link, Pad.link link ∈ n.inputs → n.inputs.count (.link link) = 1 := by
  simp only [List.nodup_iff_count_le_one, count_reads]
  constructor
  · intro h link hLink
    exact Nat.le_antisymm (h link) (List.count_pos_iff.mpr hLink)
  · intro h link
    by_cases hLink : Pad.link link ∈ n.inputs
    · exact Nat.le_of_eq (h link hLink)
    · rw [List.count_eq_zero.mpr hLink]
      exact Nat.zero_le 1

/-- A node is admissible behind wired nodes exactly when it keeps them wired. -/
theorem Wired.concat_iff_admissible (h : Wired k ns) : Wired k (ns ++ [n]) ↔ Admissible k ns n := by
  rw [wired_concat_iff, formed_iff, nodup_reads_iff]
  simp only [mem_reads_iff, List.mem_map, List.mem_flatMap, not_exists, not_and]
  constructor
  · rintro ⟨-, ⟨hFilters, hOutputs, hArity, hRange⟩, hLabel, hLinks, hOnce, hNew, hNodup⟩
    exact {
      label_new := hLabel
      filters_ne := hFilters
      outputs_ne := hOutputs
      arity := hArity
      inRange := hRange
      written := fun link hLink => (hLinks link hLink).1
      unread := fun link hLink => (hLinks link hLink).2
      once := hOnce
      outputs_nodup := hNodup
      outputs_new := hNew }
  · intro hNode
    exact ⟨h, ⟨hNode.filters_ne, hNode.outputs_ne, hNode.arity, hNode.inRange⟩, hNode.label_new,
      fun link hLink => ⟨hNode.written link hLink, hNode.unread link hLink⟩, hNode.once,
      hNode.outputs_new, hNode.outputs_nodup⟩

end Node

namespace Graph

open Stateful

variable {g : Graph T} {n : Node T}

theorem Sound.push_iff_admissible (h : g.Sound) :
    (∃ next, g.push n = .ok next) ↔ Node.Admissible g.inputCount g.nodes.toList n := by
  rw [← h.wired.concat_iff_admissible, ← h.fits_iff]
  simp only [push_eq_ok_iff, exists_and_left, exists_eq, and_true]

/-! ## Pushing in place -/

def setLink (state : LinkState) (g : Graph T) (link : String) : Graph T :=
  { g with links := g.links.insert link state }

/-- A push that works on the graph it is given. Only behind the checks are the links marked that are
read, then those opened that are written, and label and node added. -/
def pushInPlace (n : Node T) : ExceptT Violation (StateM (Graph T)) Unit := do
  MonadExcept.ofExcept ((← get).check n)
  n.reads.forM fun link => modify (·.setLink .consumed link)
  n.outputs.forM fun link => modify (·.setLink .unread link)
  modify fun g => { g with labels := g.labels.insert n.label }
  modify fun g => { g with nodes := g.nodes.push n }

theorem foldl_setLink (state : LinkState) (names : List String) (g : Graph T) :
    names.foldl (setLink state) g =
      { g with links := names.foldl (fun links name => links.insert name state) g.links } := by
  induction names generalizing g with
  | nil => rfl
  | cons name names ih => exact ih (g.setLink state name)

/-- Pushing in place gives the answer of a push, and leaves what the push gives or, when it is
refused, the graph as it was. -/
theorem outcome_pushInPlace (g : Graph T) (n : Node T) :
    outcome (pushInPlace n) g =
      match g.push n with
      | .ok next => (.ok (), next)
      | .error violation => (.error violation, g) := by
  simp only [pushInPlace, push, outcome_bind, outcome_get, outcome_ofExcept, outcome_forM_modify,
    outcome_modify, foldl_setLink]
  cases g.check n with
  | error violation => rfl
  | ok _ => rfl

/-! ## Refused pushes -/

def accepted (g : Graph T) : List (Node T) → List (Node T)
  | [] => []
  | n :: ns =>
    match g.push n with
    | .ok next => n :: next.accepted ns
    | .error _ => g.accepted ns

/-- Without the pushes that are refused, all go through and lead to the same graph. -/
theorem pushAll_accepted (g : Graph T) (ns : List (Node T)) :
    g.pushAll (g.accepted ns) = .ok (g.offerAll ns) := by
  induction ns generalizing g with
  | nil => rfl
  | cons n ns ih =>
    have hOffer : g.offerAll (n :: ns) = (g.offer n).offerAll ns := rfl
    rw [hOffer, accepted, offer]
    cases hPush : g.push n with
    | error violation => exact ih g
    | ok next =>
      obtain ⟨hFits, rfl⟩ := push_eq_ok_iff.mp hPush
      exact pushAll_cons_eq_ok_iff.mpr ⟨hFits, ih (g.insert n)⟩

/-- After any pushes, a push is accepted exactly when the node is admissible behind the nodes that
are there; carried out in place, one that is refused leaves the graph as it was, tables and all; and
the pushes that were accepted lead to the same graph by themselves. -/
theorem push_admits (k : Nat) (offered : List (Node T)) (n : Node T) :
    let g := (empty k : Graph T).offerAll offered
    ((∃ next, g.push n = .ok next) ↔ Node.Admissible k g.nodes.toList n) ∧
    (outcome (pushInPlace n) g =
      match g.push n with
      | .ok next => (.ok (), next)
      | .error violation => (.error violation, g)) ∧
    (empty k : Graph T).pushAll ((empty k : Graph T).accepted offered) = .ok g := by
  intro g
  have hSound : g.Sound := (sound_empty k).offerAll offered
  have hCount : g.inputCount = k := inputCount_offerAll _ _
  refine ⟨?_, outcome_pushInPlace g n, pushAll_accepted _ offered⟩
  rw [hSound.push_iff_admissible, hCount]

end Graph

end Diaporama
