import Mathlib.Data.List.Nodup
import Diaporama.Proofs.Graph.Push

/-!
# Wired lists of nodes

Which lists of nodes a graph can consist of, said of the list alone: labels, outputs and links read
are all different, and a node reads only what nodes before it write.
-/

namespace Diaporama.Node

variable {T : Type}

/-- Every node reads only links of `known` and links written by nodes before it. -/
def Ordered (known : List String) : List (Node T) → Prop
  | [] => True
  | n :: ns => n.reads ⊆ known ∧ Ordered (known ++ n.outputs) ns

theorem ordered_append (known : List String) (ms ns : List (Node T)) :
    Ordered known (ms ++ ns) ↔ Ordered known ms ∧ Ordered (known ++ ms.flatMap Node.outputs) ns := by
  induction ms generalizing known with
  | nil => simp [Ordered]
  | cons m ms ih => simp [Ordered, ih, and_assoc]

/-- The order of the nodes in terms of positions: what stands before a node writes what it reads. -/
theorem ordered_iff (known : List String) (ns : List (Node T)) :
    Ordered known ns ↔ ∀ before n after, ns = before ++ n :: after →
      n.reads ⊆ known ++ before.flatMap Node.outputs := by
  induction ns generalizing known with
  | nil => simp [Ordered]
  | cons m ns ih =>
      rw [Ordered, ih]
      constructor
      · rintro ⟨hHead, hTail⟩ before n after h
        cases before with
        | nil =>
            obtain ⟨rfl, -⟩ := List.cons.inj h
            simpa using hHead
        | cons first before =>
            obtain ⟨rfl, hRest⟩ := List.cons.inj h
            simpa [List.append_assoc] using hTail before n after hRest
      · intro h
        refine ⟨by simpa using h [] m ns rfl, fun before n after hRest => ?_⟩
        simpa [List.append_assoc] using h (m :: before) n after (by rw [hRest, List.cons_append])

theorem ordered_of_reads_subset {known : List String} {ns : List (Node T)}
    (h : ns.flatMap Node.reads ⊆ known) : Ordered known ns := by
  rw [ordered_iff]
  rintro before n after rfl link hLink
  exact List.mem_append_left _ (h (List.mem_flatMap.mpr ⟨n, by simp, hLink⟩))

/-- The lists of nodes a graph over `k` encoder inputs can consist of. -/
structure Wired (k : Nat) (ns : List (Node T)) : Prop where
  formed : ∀ n ∈ ns, n.Formed k
  labels_nodup : (ns.map Node.label).Nodup
  outputs_nodup : (ns.flatMap Node.outputs).Nodup
  reads_nodup : (ns.flatMap Node.reads).Nodup
  ordered : Ordered [] ns

theorem Wired.nil (k : Nat) : Wired k ([] : List (Node T)) :=
  ⟨by simp, by simp, by simp, by simp, trivial⟩

theorem Wired.of_append {k : Nat} {ms ns : List (Node T)} (h : Wired k (ms ++ ns)) :
    Wired k ms where
  formed n hn := h.formed n (List.mem_append_left _ hn)
  labels_nodup := (List.map_append ▸ h.labels_nodup).of_append_left
  outputs_nodup := (List.flatMap_append ▸ h.outputs_nodup).of_append_left
  reads_nodup := (List.flatMap_append ▸ h.reads_nodup).of_append_left
  ordered := ((ordered_append _ _ _).mp h.ordered).1

theorem Wired.reads_subset {k : Nat} {ns : List (Node T)} (h : Wired k ns) {n : Node T}
    (hn : n ∈ ns) : n.reads ⊆ ns.flatMap Node.outputs := by
  obtain ⟨before, after, rfl⟩ := List.append_of_mem hn
  intro link hLink
  have hBefore := (ordered_iff [] _).mp h.ordered before n after rfl hLink
  rw [List.nil_append] at hBefore
  rw [List.flatMap_append]
  exact List.mem_append_left _ hBefore

/-- What is asked of nodes that follow others: they are wired among themselves, use nothing up a
second time, and read only links that were written before. -/
structure Continues (k : Nat) (ms ns : List (Node T)) : Prop where
  formed : ∀ n ∈ ns, n.Formed k
  labels_nodup : (ns.map Node.label).Nodup
  labels_new : ∀ label ∈ ns.map Node.label, label ∉ ms.map Node.label
  outputs_nodup : (ns.flatMap Node.outputs).Nodup
  outputs_new : ∀ link ∈ ns.flatMap Node.outputs, link ∉ ms.flatMap Node.outputs
  reads_nodup : (ns.flatMap Node.reads).Nodup
  reads_new : ∀ link ∈ ns.flatMap Node.reads, link ∉ ms.flatMap Node.reads
  ordered : Ordered (ms.flatMap Node.outputs) ns

theorem wired_append_iff {k : Nat} {ms ns : List (Node T)} :
    Wired k (ms ++ ns) ↔ Wired k ms ∧ Continues k ms ns := by
  constructor
  · intro h
    have hLabels := h.labels_nodup
    have hOutputs := h.outputs_nodup
    have hReads := h.reads_nodup
    rw [List.map_append, List.nodup_append'] at hLabels
    rw [List.flatMap_append, List.nodup_append'] at hOutputs hReads
    exact ⟨h.of_append, {
      formed := fun n hn => h.formed n (List.mem_append_right _ hn)
      labels_nodup := hLabels.2.1
      labels_new := fun _ hNew hOld => hLabels.2.2 hOld hNew
      outputs_nodup := hOutputs.2.1
      outputs_new := fun _ hNew hOld => hOutputs.2.2 hOld hNew
      reads_nodup := hReads.2.1
      reads_new := fun _ hNew hOld => hReads.2.2 hOld hNew
      ordered := ((ordered_append _ _ _).mp h.ordered).2 }⟩
  · rintro ⟨hWired, h⟩
    refine ⟨List.forall_mem_append.mpr ⟨hWired.formed, h.formed⟩, ?_, ?_, ?_, ?_⟩
    · rw [List.map_append, List.nodup_append']
      exact ⟨hWired.labels_nodup, h.labels_nodup, fun _ hOld hNew => h.labels_new _ hNew hOld⟩
    · rw [List.flatMap_append, List.nodup_append']
      exact ⟨hWired.outputs_nodup, h.outputs_nodup, fun _ hOld hNew => h.outputs_new _ hNew hOld⟩
    · rw [List.flatMap_append, List.nodup_append']
      exact ⟨hWired.reads_nodup, h.reads_nodup, fun _ hOld hNew => h.reads_new _ hNew hOld⟩
    · exact (ordered_append _ _ _).mpr ⟨hWired.ordered, h.ordered⟩

/-- What the last node adds to the wiring of those before it. -/
theorem wired_concat_iff {k : Nat} {ns : List (Node T)} {n : Node T} :
    Wired k (ns ++ [n]) ↔ Wired k ns ∧ n.Formed k ∧ n.label ∉ ns.map Node.label ∧
      (∀ link ∈ n.reads, link ∈ ns.flatMap Node.outputs ∧ link ∉ ns.flatMap Node.reads) ∧
      n.reads.Nodup ∧ (∀ link ∈ n.outputs, link ∉ ns.flatMap Node.outputs) ∧ n.outputs.Nodup := by
  rw [wired_append_iff]
  refine and_congr_right fun _ => ⟨fun h => ?_, ?_⟩
  · refine ⟨h.formed n (List.mem_singleton_self n), h.labels_new _ (List.mem_singleton_self _),
      fun link hLink => ⟨h.ordered.1 hLink, h.reads_new link (by simpa using hLink)⟩, ?_,
      fun link hLink => h.outputs_new link (by simpa using hLink), ?_⟩
    · simpa using h.reads_nodup
    · simpa using h.outputs_nodup
  · rintro ⟨hFormed, hLabel, hLinks, hReads, hNew, hOutputs⟩
    exact {
      formed := by simpa using hFormed
      labels_nodup := List.nodup_singleton _
      labels_new := by simpa using hLabel
      outputs_nodup := by simpa using hOutputs
      outputs_new := by simpa using hNew
      reads_nodup := by simpa using hReads
      reads_new := by simpa using fun link hLink => (hLinks link hLink).2
      ordered := ⟨fun link hLink => (hLinks link hLink).1, trivial⟩ }

theorem Wired.not_mem_reads_of_mem_last {k : Nat} {ns : List (Node T)} {last : Node T}
    (h : Wired k (ns ++ [last])) {link : String} (hLink : link ∈ last.outputs) :
    link ∉ (ns ++ [last]).flatMap Node.reads := by
  obtain ⟨hWired, -, -, hReads, -, hNew, -⟩ := wired_concat_iff.mp h
  intro hRead
  obtain ⟨n, hn, hRead⟩ := List.mem_flatMap.mp hRead
  rcases List.mem_append.mp hn with hn | hn
  · exact hNew link hLink (hWired.reads_subset hn hRead)
  · rw [List.mem_singleton.mp hn] at hRead
    exact hNew link hLink (hReads link hRead).1

end Diaporama.Node
