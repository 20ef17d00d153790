import Diaporama.Proofs.Computation
import Diaporama.Proofs.Graph.Sink
import Diaporama.Proofs.Slideshow.Chain

/-!
# When a chain can be built

A chain is built on whatever graph is there, and its sources and its own links share one space of
names. It goes through exactly when the sources are open and different and all that it names is new:
a link is read only behind the node that writes it, so no source can be a link of the chain itself.
-/

namespace Diaporama

variable {T : Type} [Seconds T]

namespace Strategy

variable {s : Strategy} {c : Chain T} {g : Graph T}

def labels (s : Strategy) (n : Nat) : List String :=
  Chain.names [("fadein", s.entranceCount n), ("xfade", n - 1)] ++ ["output"]

/-- The links that a chain over `n` links writes on the way to its sink. -/
def links (s : Strategy) (n : Nat) : List String :=
  Chain.names [("f", s.entranceCount n), (s.stem, n - 1)]

theorem nodup_labels (s : Strategy) (n : Nat) : (s.labels n).Nodup := by
  apply Chain.nodup_names_concat <;> simp

theorem nodup_links (s : Strategy) (n : Nat) : (s.links n).Nodup := by
  cases s with
  | blend style stem =>
      have hLinks : (blend style stem).links n =
          (List.range (n - 1)).map (Chain.numbered stem) := by
        simp [links, Chain.names, entranceCount, fadesIn, Strategy.stem]
      rw [hLinks]
      exact Chain.nodup_numbered stem _
  | fade offsets => apply Chain.nodup_names <;> simp [stem]

/-- What a graph has to offer for a chain to be built on it. -/
structure Buildable (s : Strategy) (c : Chain T) (g : Graph T) : Prop where
  sources_nodup : c.sources.Nodup
  sources_open : ∀ link ∈ c.sources, link ∈ g.openLinks
  labels_new : ∀ label ∈ s.labels c.sources.length, ∀ n ∈ g.nodes, n.label ≠ label
  links_new : ∀ link ∈ s.links c.sources.length, ∀ n ∈ g.nodes, link ∉ n.outputs
  sink_new : ∀ n ∈ g.nodes, c.sink ∉ n.outputs
  sink_other : c.sink ∉ s.links c.sources.length

theorem exists_chainNodes_eq_concat (s : Strategy) (c : Chain T) (h : c.sources ≠ []) :
    ∃ front last filters, s.chainNodes c = front ++ [c.outputNode last filters] := by
  obtain ⟨first, rest, hEntering, -⟩ := s.exists_entering_eq_cons c h
  simp only [chainNodes, hEntering]
  exact ⟨_, _, _, rfl⟩

theorem sink_mem_outputs_chainNodes (s : Strategy) (c : Chain T) (h : c.sources ≠ []) :
    c.sink ∈ (s.chainNodes c).flatMap Node.outputs := by
  rw [s.outputs_chainNodes c h]
  exact List.mem_append_right _ (List.mem_singleton_self _)

/-- Behind wired nodes a chain reads no link twice, not even one that it writes. -/
theorem nodup_sources_append_outputs {k : Nat} {ms : List (Node T)} (h : c.sources ≠ [])
    (hWired : Node.Wired k (ms ++ s.chainNodes c)) :
    (c.sources ++ (s.chainNodes c).flatMap Node.outputs).Nodup := by
  have hSink : c.sink ∉ (s.chainNodes c).flatMap Node.reads := by
    obtain ⟨front, last, filters, hNodes⟩ := s.exists_chainNodes_eq_concat c h
    rw [hNodes, ← List.append_assoc] at hWired
    have hUnread := hWired.not_mem_reads_of_mem_last (List.mem_singleton_self c.sink)
    rw [List.append_assoc, ← hNodes, List.flatMap_append, List.mem_append, not_or] at hUnread
    exact hUnread.2
  rw [← (s.reads_chainNodes_perm c h).nodup_iff, List.nodup_append']
  exact ⟨(Node.wired_append_iff.mp hWired).2.reads_nodup, List.nodup_singleton _,
    List.disjoint_singleton.mpr hSink⟩

theorem buildable_of_wired (hSound : g.Sound) (h : c.sources ≠ [])
    (hWired : Node.Wired g.inputCount (g.nodes.toList ++ s.chainNodes c)) : s.Buildable c g := by
  have hNew := (Node.wired_append_iff.mp hWired).2
  have hNodup := nodup_sources_append_outputs h hWired
  rw [List.nodup_append'] at hNodup
  obtain ⟨hSources, hOutputs, hDisjoint⟩ := hNodup
  have hWritten : ∀ link ∈ (s.chainNodes c).flatMap Node.outputs, ∀ n ∈ g.nodes,
      link ∉ n.outputs := by
    intro link hLink n hn hOld
    exact hNew.outputs_new link hLink
      (List.mem_flatMap.mpr ⟨n, Array.mem_toList_iff.mpr hn, hOld⟩)
  have hOpen : ∀ link ∈ c.sources, link ∈ g.openLinks := by
    intro link hLink
    have hOther := List.disjoint_left.mp hDisjoint hLink
    have hRead : link ∈ (s.chainNodes c).flatMap Node.reads := by
      have hMem := (s.reads_chainNodes_perm c h).mem_iff.mpr (List.mem_append_left _ hLink)
      rw [List.mem_append, List.mem_singleton] at hMem
      refine hMem.resolve_right ?_
      rintro rfl
      exact hOther (s.sink_mem_outputs_chainNodes c h)
    obtain ⟨n, hn, hReads⟩ := List.mem_flatMap.mp hRead
    have hSource := hWired.reads_subset (List.mem_append_right _ hn) hReads
    rw [List.flatMap_append, List.mem_append] at hSource
    rw [hSound.mem_openLinks_iff]
    exact ⟨hSource.resolve_right hOther, hNew.reads_new link hRead⟩
  rw [s.outputs_chainNodes c h, List.nodup_append'] at hOutputs
  rw [s.outputs_chainNodes c h, List.forall_mem_append, List.forall_mem_singleton] at hWritten
  exact {
    sources_nodup := hSources
    sources_open := hOpen
    labels_new := fun label hLabel n hn hEq => hNew.labels_new label
      (s.labels_chainNodes c h ▸ hLabel) (List.mem_map.mpr ⟨n, Array.mem_toList_iff.mpr hn, hEq⟩)
    links_new := hWritten.1
    sink_new := hWritten.2
    sink_other := List.disjoint_singleton.mp hOutputs.2.2 }

theorem Buildable.wired (hBuild : s.Buildable c g) (hSound : g.Sound) (h : c.sources ≠ []) :
    Node.Wired g.inputCount (g.nodes.toList ++ s.chainNodes c) := by
  have hOutputs := s.outputs_chainNodes c h
  have hNew : ∀ link ∈ (s.chainNodes c).flatMap Node.outputs, link ∉ g.written := by
    rw [hOutputs]
    intro link hLink hOld
    obtain ⟨n, hn, hOld⟩ := List.mem_flatMap.mp hOld
    rcases List.mem_append.mp hLink with hLink | hLink
    · exact hBuild.links_new link hLink n (Array.mem_toList_iff.mp hn) hOld
    · rw [List.mem_singleton.mp hLink] at hOld
      exact hBuild.sink_new n (Array.mem_toList_iff.mp hn) hOld
  have hOpen : ∀ link ∈ c.sources, link ∈ g.written ∧ link ∉ g.read := by
    intro link hLink
    rw [← hSound.mem_openLinks_iff]
    exact hBuild.sources_open link hLink
  have hNodup : ((s.chainNodes c).flatMap Node.outputs).Nodup := by
    rw [hOutputs, List.nodup_append']
    exact ⟨s.nodup_links _, List.nodup_singleton _, List.disjoint_singleton.mpr hBuild.sink_other⟩
  have hPerm := s.reads_chainNodes_perm c h
  refine Node.wired_append_iff.mpr ⟨hSound.wired, {
    formed := fun n hn => s.formed_of_mem_chainNodes hn
    labels_nodup := by
      rw [s.labels_chainNodes c h]
      exact s.nodup_labels _
    labels_new := fun label hLabel hOld => ?_
    outputs_nodup := hNodup
    outputs_new := hNew
    reads_nodup := ?_
    reads_new := fun link hLink hOld => ?_
    ordered := s.ordered_chainNodes h fun link hLink => (hOpen link hLink).1 }⟩
  · rw [s.labels_chainNodes c h] at hLabel
    obtain ⟨n, hn, hEq⟩ := List.mem_map.mp hOld
    exact hBuild.labels_new label hLabel n (Array.mem_toList_iff.mp hn) hEq
  · have hAll : (c.sources ++ (s.chainNodes c).flatMap Node.outputs).Nodup :=
      List.nodup_append'.mpr ⟨hBuild.sources_nodup, hNodup,
        fun link hLink hOut => hNew link hOut (hOpen link hLink).1⟩
    exact (hPerm.nodup_iff.mpr hAll).of_append_left
  · rcases List.mem_append.mp (hPerm.mem_iff.mp (List.mem_append_left _ hLink)) with hLink | hLink
    · exact (hOpen link hLink).2 hOld
    · exact hNew link hLink (hSound.read_subset_written hOld)

theorem wired_chainNodes_iff (hSound : g.Sound) (h : c.sources ≠ []) :
    Node.Wired g.inputCount (g.nodes.toList ++ s.chainNodes c) ↔ s.Buildable c g :=
  ⟨buildable_of_wired hSound h, fun hBuild => hBuild.wired hSound h⟩

/-! ## Building -/

theorem result_build_of_nil (s : Strategy) (g : Graph T) (h : c.sources = []) :
    (s.build c g).result = .error .noImages := by
  simp [build, plan?, h]

/-- A chain that can be built leaves its nodes behind those of the graph. -/
theorem build_of_buildable (hSound : g.Sound) (h : c.sources ≠ []) (hBuild : s.Buildable c g) :
    (s.build c g).result = .ok () ∧ (s.build c g).graph = g.insertAll (s.chainNodes c) := by
  obtain ⟨steps, hPlan, hNodes⟩ := s.plan?_nodes c h
  have hPush : g.pushAll (steps.filterMap Step.node?) = .ok (g.insertAll (s.chainNodes c)) := by
    rw [hNodes]
    exact hSound.pushAll_eq_ok_iff.mpr ⟨(wired_chainNodes_iff hSound h).mpr hBuild, rfl⟩
  rw [build, hPlan]
  simp only [Graph.follow_of_pushAll hPush]
  exact ⟨rfl, trivial⟩

theorem buildable_of_result_build (hSound : g.Sound) (h : c.sources ≠ [])
    (hResult : (s.build c g).result = .ok ()) : s.Buildable c g := by
  obtain ⟨steps, hPlan, hNodes⟩ := s.plan?_nodes c h
  simp only [build, hPlan, mapError_eq_ok_iff, Graph.result_follow_eq_ok_iff, hNodes] at hResult
  obtain ⟨g', hPush⟩ := hResult
  exact (wired_chainNodes_iff hSound h).mp (hSound.pushAll_eq_ok_iff.mp hPush).1

theorem mem_openLinks_insertAll_iff (hSound : g.Sound) (h : c.sources ≠ [])
    (hBuild : s.Buildable c g) (link : String) :
    link ∈ (g.insertAll (s.chainNodes c)).openLinks ↔
      link ∈ g.openLinks ∧ link ∉ c.sources ∨ link = c.sink := by
  have hWired := hBuild.wired hSound h
  have hAll : (g.insertAll (s.chainNodes c)).Sound :=
    hSound.of_pushAll (hSound.pushAll_eq_ok_iff.mpr ⟨hWired, rfl⟩)
  have hNew := (Node.wired_append_iff.mp hWired).2
  have hReads := (s.reads_chainNodes_perm c h).nodup_iff.mpr (nodup_sources_append_outputs h hWired)
  have hOld : link ∈ g.read → link ∈ g.written := fun hLink => hSound.read_subset_written hLink
  have hOutput := hNew.outputs_new link
  have hSource := hBuild.sources_open link
  have hRead : link ∈ (s.chainNodes c).flatMap Node.reads ∨ link = c.sink ↔
      link ∈ c.sources ∨ link ∈ (s.chainNodes c).flatMap Node.outputs := by
    simpa using (s.reads_chainNodes_perm c h).mem_iff (a := link)
  have hSink : link = c.sink → link ∈ (s.chainNodes c).flatMap Node.outputs ∧
      link ∉ (s.chainNodes c).flatMap Node.reads := by
    rintro rfl
    rw [List.nodup_append', List.disjoint_singleton] at hReads
    exact ⟨s.sink_mem_outputs_chainNodes c h, hReads.2.2⟩
  rw [hSound.mem_openLinks_iff] at hSource ⊢
  rw [hAll.mem_openLinks_iff, Graph.written_insertAll, Graph.read_insertAll, List.mem_append,
    List.mem_append]
  change _ → link ∉ g.written at hOutput
  -- What is left is a matter of the six lists alone.
  tauto

theorem result_build_eq_noImages_iff (s : Strategy) (c : Chain T) (g : Graph T) :
    (s.build c g).result = .error .noImages ↔ c.sources = [] := by
  refine ⟨fun hResult => ?_, s.result_build_of_nil g⟩
  by_contra h
  obtain ⟨steps, hPlan, -⟩ := s.plan?_nodes c h
  simp only [build, hPlan, mapError_eq_error_iff] at hResult
  obtain ⟨violation, -, hOther⟩ := hResult
  cases hOther

/-- After any pushes, building a chain fails for want of links exactly when it has none, and goes
through exactly when the graph offers what the chain asks for. Then the nodes that were there stay
where they are, and the sink is open in place of the sources. -/
theorem build_decides (k : Nat) (offered : List (Node T)) (s : Strategy) (c : Chain T) :
    let g := (Graph.empty k : Graph T).offerAll offered
    let built := s.build c g
    (built.result = .error .noImages ↔ c.sources = []) ∧
    (built.result = .ok () ↔ c.sources ≠ [] ∧ s.Buildable c g) ∧
    (built.result = .ok () →
      g.nodes.toList <+: built.graph.nodes.toList ∧
      ∀ link, link ∈ built.graph.openLinks ↔
        link ∈ g.openLinks ∧ link ∉ c.sources ∨ link = c.sink) := by
  intro g built
  have hSound : g.Sound := (Graph.sound_empty k).offerAll offered
  have hOk : built.result = .ok () ↔ c.sources ≠ [] ∧ s.Buildable c g := by
    constructor
    · intro hResult
      have hSources : c.sources ≠ [] := fun hNone => by
        rw [s.result_build_of_nil g hNone] at hResult
        cases hResult
      exact ⟨hSources, buildable_of_result_build hSound hSources hResult⟩
    · rintro ⟨hSources, hBuild⟩
      exact (build_of_buildable hSound hSources hBuild).1
  refine ⟨s.result_build_eq_noImages_iff c g, hOk, fun hResult => ?_⟩
  obtain ⟨hSources, hBuild⟩ := hOk.mp hResult
  have hGraph : built.graph = g.insertAll (s.chainNodes c) :=
    (build_of_buildable hSound hSources hBuild).2
  rw [hGraph, Graph.toList_nodes_insertAll]
  exact ⟨List.prefix_append _ _, mem_openLinks_insertAll_iff hSound hSources hBuild⟩

/-- An open link that is called like the first link of a chain: the chain is refused, also where the
link is one of its sources, and goes through under another stem. -/
theorem build_decides_stems :
    let source (i : Nat) (link : String) : Node Float :=
      ⟨link, .normalize, [.squarePixels], [.source i .video], [link]⟩
    let g := (Graph.empty 3).offerAll [source 0 "a", source 1 "b", source 2 "b0"]
    let chain (links : List String) : Chain Float :=
      ⟨links, ⟨2.0, 0.8, by decide, by decide⟩, "outv", "yuv420p"⟩
    ((blend .dissolve "b").build (chain ["a", "b"]) g).result ≠ .ok () ∧
      ((blend .dissolve "b").build (chain ["a", "b", "b0"]) g).result ≠ .ok () ∧
      ((blend .dissolve "s").build (chain ["a", "b", "b0"]) g).result = .ok () := by
  intro source g chain
  have hNodes : g.nodes.toList = [source 0 "a", source 1 "b", source 2 "b0"] := by
    dsimp only [g, source]
    rfl
  have hTaken : ¬ ∀ n ∈ g.nodes, "b0" ∉ n.outputs := fun hNew =>
    hNew (source 2 "b0") (Array.mem_toList_iff.mp (by simp [hNodes])) (List.mem_singleton_self _)
  refine ⟨fun hOk => ?_, fun hOk => ?_, ?_⟩
  · obtain ⟨-, hBuild⟩ := (build_decides 3 _ (blend .dissolve "b") (chain ["a", "b"])).2.1.mp hOk
    exact hTaken (hBuild.links_new "b0" (by decide))
  · obtain ⟨-, hBuild⟩ :=
      (build_decides 3 _ (blend .dissolve "b") (chain ["a", "b", "b0"])).2.1.mp hOk
    exact hTaken (hBuild.links_new "b0" (by decide))
  · have hAll : ∀ {P : Node Float → Prop},
        (∀ n ∈ [source 0 "a", source 1 "b", source 2 "b0"], P n) → ∀ n ∈ g.nodes, P n :=
      fun hList n hn => hList n (hNodes ▸ Array.mem_toList_iff.mpr hn)
    refine (build_decides 3 _ (blend .dissolve "s") (chain ["a", "b", "b0"])).2.1.mpr
      ⟨List.cons_ne_nil _ _, ?_⟩
    exact {
      sources_nodup := by decide
      sources_open := by decide +kernel
      labels_new := fun label hLabel => hAll (by revert label; decide)
      links_new := fun link hLink => hAll (by revert link; decide)
      sink_new := hAll (by decide)
      sink_other := by decide }

end Strategy

end Diaporama
