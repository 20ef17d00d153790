import Diaporama.Chain
import Diaporama.Proofs.Graph.Sound

/-!
# Pushing lists of nodes

A list of nodes goes through as a whole exactly when it is wired behind the nodes that are there. A
plan comes to the same as its nodes, and reports its events on the way.
-/

namespace Diaporama

variable {T : Type}

namespace Graph

variable {g g' : Graph T}

/-- The graph with nodes behind all others, whether they fit or not. -/
def insertAll (g : Graph T) (ns : List (Node T)) : Graph T :=
  ns.foldl insert g

@[simp] theorem inputCount_insertAll (g : Graph T) (ns : List (Node T)) :
    (g.insertAll ns).inputCount = g.inputCount := by
  induction ns generalizing g with
  | nil => rfl
  | cons n ns ih => exact ih (g.insert n)

@[simp] theorem toList_nodes_insertAll (g : Graph T) (ns : List (Node T)) :
    (g.insertAll ns).nodes.toList = g.nodes.toList ++ ns := by
  induction ns generalizing g with
  | nil => simp [insertAll]
  | cons n ns ih =>
      have hTail := ih (g.insert n)
      rw [toList_nodes_insert, List.append_assoc, List.singleton_append] at hTail
      exact hTail

@[simp] theorem written_insertAll (g : Graph T) (ns : List (Node T)) :
    (g.insertAll ns).written = g.written ++ ns.flatMap Node.outputs := by
  simp [written]

@[simp] theorem read_insertAll (g : Graph T) (ns : List (Node T)) :
    (g.insertAll ns).read = g.read ++ ns.flatMap Node.reads := by
  simp [read]

theorem pushAll_cons_eq_ok_iff {n : Node T} {ns : List (Node T)} :
    g.pushAll (n :: ns) = .ok g' ↔ g.Fits n ∧ (g.insert n).pushAll ns = .ok g' := by
  rw [pushAll, List.foldlM_cons]
  cases hPush : g.push n with
  | error violation =>
      have hFits : ¬ g.Fits n := fun hFits => by
        rw [push_eq_ok_iff.mpr ⟨hFits, rfl⟩] at hPush
        cases hPush
      simp [bind, Except.bind, hFits]
  | ok next =>
      obtain ⟨hFits, rfl⟩ := push_eq_ok_iff.mp hPush
      simp [bind, Except.bind, hFits, pushAll]

theorem pushAll_append_eq_ok_iff {ms ns : List (Node T)} :
    g.pushAll (ms ++ ns) = .ok g' ↔ ∃ middle, g.pushAll ms = .ok middle ∧ middle.pushAll ns = .ok g' := by
  rw [pushAll, List.foldlM_append]
  cases hFirst : ms.foldlM push g with
  | error violation => simp [pushAll, hFirst, bind, Except.bind]
  | ok middle => simp [pushAll, hFirst, bind, Except.bind]

theorem Sound.pushAll_eq_ok_iff (h : g.Sound) {ns : List (Node T)} :
    g.pushAll ns = .ok g' ↔
      Node.Wired g.inputCount (g.nodes.toList ++ ns) ∧ g' = g.insertAll ns := by
  -- A push is judged by the nodes before it, so the statement is needed for every sound graph.
  induction ns generalizing g with
  | nil =>
      simp only [pushAll, List.foldlM_nil, pure, Except.pure, Except.ok.injEq, List.append_nil,
        h.wired, true_and, insertAll, List.foldl_nil]
      exact eq_comm
  | cons n ns ih =>
      rw [pushAll_cons_eq_ok_iff, ← List.singleton_append, ← List.append_assoc]
      constructor
      · rintro ⟨hFits, hRest⟩
        obtain ⟨hWired, rfl⟩ := (ih (h.insert hFits)).mp hRest
        exact ⟨by simpa using hWired, rfl⟩
      · rintro ⟨hWired, rfl⟩
        have hFits : g.Fits n := h.fits_iff.mpr hWired.of_append
        exact ⟨hFits, (ih (h.insert hFits)).mpr ⟨by simpa using hWired, rfl⟩⟩

theorem Sound.of_pushAll (h : g.Sound) {ns : List (Node T)} (hPush : g.pushAll ns = .ok g') :
    g'.Sound := by
  induction ns generalizing g with
  | nil =>
      cases hPush
      exact h
  | cons n ns ih =>
      obtain ⟨hFits, hRest⟩ := pushAll_cons_eq_ok_iff.mp hPush
      exact ih (h.insert hFits) hRest

end Graph

def Step.node? : Step T → Option (Node T)
  | node n => some n
  | event _ => none

def Step.event? : Step T → Option (Event T)
  | node _ => none
  | event e => some e

theorem Graph.follow_of_pushAll {g g' : Graph T} {steps : List (Step T)}
    (h : g.pushAll (steps.filterMap Step.node?) = .ok g') :
    g.follow steps = ⟨g', steps.filterMap Step.event?, .ok ()⟩ := by
  induction steps generalizing g with
  | nil =>
      cases h
      rfl
  | cons step steps ih =>
      cases step with
      | event e =>
          rw [follow, ih h]
          rfl
      | node n =>
          obtain ⟨hFits, hRest⟩ := pushAll_cons_eq_ok_iff.mp h
          rw [follow, push_eq_ok_iff.mpr ⟨hFits, rfl⟩]
          exact ih hRest

theorem Graph.result_follow_eq_ok_iff {g : Graph T} {steps : List (Step T)} :
    (g.follow steps).result = .ok () ↔ ∃ g', g.pushAll (steps.filterMap Step.node?) = .ok g' := by
  constructor
  · intro h
    induction steps generalizing g with
    | nil => exact ⟨g, rfl⟩
    | cons step steps ih =>
        cases step with
        | event e => exact ih h
        | node n =>
            rw [follow] at h
            cases hPush : g.push n with
            | error violation =>
                rw [hPush] at h
                cases h
            | ok next =>
                rw [hPush] at h
                obtain ⟨g', hRest⟩ := ih h
                obtain ⟨hFits, rfl⟩ := push_eq_ok_iff.mp hPush
                exact ⟨g', pushAll_cons_eq_ok_iff.mpr ⟨hFits, hRest⟩⟩
  · rintro ⟨g', hPush⟩
    rw [follow_of_pushAll hPush]

end Diaporama
