import Mathlib.Logic.Relation
import Diaporama.Proofs.Graph.Sink

/-!
# Graphs that end

When a single link is left open, the whole graph runs together in it: its producer is the last node,
every other node feeds it over links that are read, and all links but this one have a reader.
-/

namespace Diaporama.Graph

variable {T : Type} {g : Graph T} {sink : String}

def Feeds (g : Graph T) (n m : Node T) : Prop :=
  n ∈ g.nodes ∧ m ∈ g.nodes ∧ ∃ link ∈ n.outputs, Pad.link link ∈ m.inputs

/-- In a graph that ends, every link but the sink is read, and the sink is not. -/
theorem Sound.written_perm_read (h : g.Sound) (hEnd : g.validate sink = .ok ()) :
    g.written.Perm (g.read ++ [sink]) := by
  have hOpen := (h.validate_eq_ok_iff sink).mp hEnd
  have hSink := (hOpen sink).mpr rfl
  have hNodup : (g.read ++ [sink]).Nodup :=
    List.nodup_append'.mpr ⟨h.wired.reads_nodup, List.nodup_singleton sink,
      by simpa [List.disjoint_singleton] using hSink.2⟩
  refine (List.perm_ext_iff_of_nodup h.wired.outputs_nodup hNodup).mpr fun link => ?_
  rw [List.mem_append, List.mem_singleton]
  constructor
  · intro hWritten
    by_cases hRead : link ∈ g.read
    · exact .inl hRead
    · exact .inr ((hOpen link).mp ⟨hWritten, hRead⟩)
  · rintro (hRead | rfl)
    · exact h.read_subset_written hRead
    · exact hSink.1

/-- Whoever reads a link stands behind the node that writes it. -/
theorem Sound.exists_reader_after (h : g.Sound) {before after : List (Node T)} {n : Node T}
    (hNodes : g.nodes.toList = before ++ n :: after) {link : String} (hLink : link ∈ n.outputs)
    (hRead : link ∈ g.read) : ∃ m ∈ after, Pad.link link ∈ m.inputs := by
  have hWired : Node.Wired g.inputCount (before ++ n :: after) := hNodes ▸ h.wired
  -- Up to the node itself, only links of earlier nodes are read, and those are other links.
  have hBefore : link ∉ before.flatMap Node.outputs := by
    have hNodup := hWired.outputs_nodup
    rw [List.flatMap_append, List.flatMap_cons, List.nodup_append'] at hNodup
    exact fun hOld => hNodup.2.2 hOld (List.mem_append_left _ hLink)
  obtain ⟨m, hm, hReads⟩ := List.mem_flatMap.mp hRead
  rw [hNodes, List.mem_append, List.mem_cons] at hm
  rcases hm with hm | rfl | hm
  · exact absurd (hWired.of_append.reads_subset hm hReads) hBefore
  · have hOrdered := (Node.ordered_iff [] _).mp hWired.ordered before m after rfl
    exact absurd (by simpa using hOrdered hReads) hBefore
  · exact ⟨m, hm, Node.mem_reads_iff.mp hReads⟩

/-- Every node feeds the producer of the sink, over as many nodes as it takes. -/
theorem Sound.reaches_producer (h : g.Sound) (hEnd : g.validate sink = .ok ()) {last : Node T}
    (hLast : g.producer? sink = some last) {before after : List (Node T)}
    (hNodes : g.nodes.toList = before ++ after) :
    ∀ n ∈ after, Relation.ReflTransGen g.Feeds n last := by
  -- From the end of the graph on: what a node writes is read behind it, or is the sink.
  induction after generalizing before with
  | nil => simp
  | cons n after ih =>
    have hRest : g.nodes.toList = (before ++ [n]) ++ after := by simpa using hNodes
    have hAfter := ih hRest
    have hMem : ∀ m ∈ n :: after, m ∈ g.nodes := fun m hm =>
      Array.mem_toList_iff.mp (hNodes ▸ List.mem_append_right _ hm)
    have hn : n ∈ g.nodes := hMem n List.mem_cons_self
    obtain ⟨hLastMem, hLastSink⟩ := h.producer?_eq_some_iff.mp hLast
    have hFormed := h.wired.formed n (Array.mem_toList_iff.mpr hn)
    obtain ⟨link, hLink⟩ := List.exists_mem_of_ne_nil _ hFormed.outputs_ne
    have hReach : Relation.ReflTransGen g.Feeds n last := by
      by_cases hRead : link ∈ g.read
      · obtain ⟨m, hm, hReads⟩ := h.exists_reader_after hNodes hLink hRead
        exact .head ⟨hn, hMem m (List.mem_cons_of_mem _ hm), link, hLink, hReads⟩ (hAfter m hm)
      · have hWritten : link ∈ g.written :=
          List.mem_flatMap.mpr ⟨n, Array.mem_toList_iff.mpr hn, hLink⟩
        have hSink : link = sink :=
          ((h.validate_eq_ok_iff sink).mp hEnd link).mp ⟨hWritten, hRead⟩
        rw [h.eq_of_mem_outputs hn hLastMem (hSink ▸ hLink) hLastSink]
    intro m hm
    rcases List.mem_cons.mp hm with rfl | hm
    · exact hReach
    · exact hAfter m hm

/-- The last node of a graph that ends writes the sink and nothing else. -/
theorem Sound.outputs_of_last (h : g.Sound) (hEnd : g.validate sink = .ok ()) {last : Node T}
    (hLast : g.nodes.back? = some last) : last.outputs = [sink] := by
  obtain ⟨before, hNodes⟩ : ∃ before, g.nodes.toList = before ++ [last] :=
    List.getLast?_eq_some_iff.mp (by rw [Array.getLast?_toList, hLast])
  have hMem : last ∈ g.nodes.toList := by simp [hNodes]
  have hSink : ∀ link ∈ last.outputs, link = sink := by
    intro link hLink
    refine ((h.validate_eq_ok_iff sink).mp hEnd link).mp
      ⟨List.mem_flatMap.mpr ⟨last, hMem, hLink⟩, fun hRead => ?_⟩
    obtain ⟨m, hm, -⟩ := h.exists_reader_after hNodes hLink hRead
    cases hm
  have hNodup : last.outputs.Nodup := (List.nodup_flatMap.mp h.wired.outputs_nodup).1 last hMem
  obtain ⟨link, rest, hOutputs⟩ :=
    List.exists_cons_of_ne_nil (h.wired.formed last hMem).outputs_ne
  rw [hOutputs] at hSink hNodup ⊢
  cases rest with
  | nil => rw [hSink link List.mem_cons_self]
  | cons other rest =>
    have hEq : link = other := by rw [hSink link (by simp), hSink other (by simp)]
    simp [hEq] at hNodup

/-- After any pushes, a graph ends in a link exactly when that link is written and is the only one
without a reader. Then the last node writes this link alone and is its producer, every node feeds it
over links that are read, and one more link is written than read. -/
theorem validate_decides (k : Nat) (offered : List (Node T)) (sink : String) :
    let g := (empty k : Graph T).offerAll offered
    (g.validate sink = .ok () ↔
      (∃ n ∈ g.nodes, sink ∈ n.outputs) ∧
      ∀ n ∈ g.nodes, ∀ link ∈ n.outputs,
        (∀ m ∈ g.nodes, Pad.link link ∉ m.inputs) ↔ link = sink) ∧
    (g.validate sink = .ok () → ∃ last,
      g.nodes.back? = some last ∧ g.producer? sink = some last ∧ last.outputs = [sink] ∧
      (∀ n ∈ g.nodes, Relation.ReflTransGen g.Feeds n last) ∧
      (g.nodes.toList.flatMap Node.outputs).length =
        (g.nodes.toList.flatMap fun n => n.inputs.filterMap Pad.link?).length + 1) := by
  intro g
  have h : g.Sound := (sound_empty k).offerAll offered
  have hRead : ∀ link, link ∉ g.read ↔ ∀ m ∈ g.nodes, Pad.link link ∉ m.inputs := by
    intro link
    simp [read, Node.mem_reads_iff]
  have hWritten : ∀ link, link ∈ g.written ↔ ∃ n ∈ g.nodes, link ∈ n.outputs := by
    intro link
    simp [written]
  refine ⟨?_, fun hEnd => ?_⟩
  · rw [h.validate_eq_ok_iff]
    simp only [hRead, hWritten]
    constructor
    · intro hOpen
      refine ⟨((hOpen sink).mpr rfl).1, fun n hn link hLink => ⟨fun hNone => ?_, ?_⟩⟩
      · exact (hOpen link).mp ⟨⟨n, hn, hLink⟩, hNone⟩
      · rintro rfl
        exact ((hOpen link).mpr rfl).2
    · rintro ⟨⟨n, hn, hSink⟩, hOnly⟩ link
      constructor
      · rintro ⟨⟨m, hm, hLink⟩, hNone⟩
        exact (hOnly m hm link hLink).mp hNone
      · rintro rfl
        exact ⟨⟨n, hn, hSink⟩, (hOnly n hn link hSink).mpr rfl⟩
  · obtain ⟨n, hn, -⟩ := (hWritten sink).mp (((h.validate_eq_ok_iff sink).mp hEnd sink).mpr rfl).1
    obtain ⟨last, hLast⟩ : ∃ last, g.nodes.back? = some last := by
      cases hBack : g.nodes.back? with
      | some last => exact ⟨last, rfl⟩
      | none => simp [Array.back?_eq_none_iff.mp hBack] at hn
    have hOutputs : last.outputs = [sink] := h.outputs_of_last hEnd hLast
    have hProducer : g.producer? sink = some last :=
      h.producer?_eq_some_iff.mpr ⟨Array.mem_of_back? hLast, by simp [hOutputs]⟩
    refine ⟨last, hLast, hProducer, hOutputs, fun n hn => ?_, ?_⟩
    · exact h.reaches_producer hEnd hProducer (List.nil_append _).symm n
        (Array.mem_toList_iff.mpr hn)
    · have hLength : g.written.length = g.read.length + 1 := by
        rw [(h.written_perm_read hEnd).length_eq, List.length_append, List.length_singleton]
      exact hLength

end Diaporama.Graph
