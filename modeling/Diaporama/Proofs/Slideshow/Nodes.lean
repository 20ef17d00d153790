import Diaporama.Assembly
import Diaporama.Proofs.Graph.Sink
import Diaporama.Proofs.Slideshow.Chain

/-!
# The nodes of a slideshow

A slideshow of `n` pictures has a normalize node for each of them and then a chain that ends in the
output link. For every kind of transition these nodes are wired, so no push is refused, and all
links but the output link are read.
-/

namespace Diaporama

variable {T : Type} [Seconds T]

def normalNode (canvas : Canvas) (i : Nat) : Node T where
  label := Chain.numbered "norm" i
  role := .normalize
  filters := [.cover canvas, .crop canvas, .squarePixels, .format blendPixels]
  inputs := [.source i .video]
  outputs := [normalizedLink i]

def normalNodes (canvas : Canvas) (n : Nat) : List (Node T) :=
  (List.range n).map (normalNode canvas)

def slideshowChain (t : Timeline T) (pixels : String) (n : Nat) : Chain T :=
  ⟨(List.range n).map normalizedLink, t, outputLink, pixels⟩

def slideshowNodes (s : Strategy) (canvas : Canvas) (t : Timeline T) (pixels : String) (n : Nat) :
    List (Node T) :=
  normalNodes canvas n ++ s.chainNodes (slideshowChain t pixels n)

section

omit [Seconds T]

variable (canvas : Canvas) (n : Nat)

theorem labels_normalNodes :
    (normalNodes canvas n : List (Node T)).map Node.label =
      (List.range n).map (Chain.numbered "norm") := by
  rw [normalNodes, List.map_map]
  rfl

theorem outputs_normalNodes :
    (normalNodes canvas n : List (Node T)).flatMap Node.outputs =
      (List.range n).map normalizedLink := by
  rw [normalNodes, List.flatMap_map]
  exact List.flatMap_pure_eq_map normalizedLink _

theorem reads_normalNodes : (normalNodes canvas n : List (Node T)).flatMap Node.reads = [] := by
  rw [normalNodes, List.flatMap_map]
  exact List.flatMap_eq_nil_iff.mpr fun _ _ => rfl

theorem formed_of_mem_normalNodes {canvas : Canvas} {n k : Nat} (hk : n ≤ k) {m : Node T}
    (h : m ∈ normalNodes canvas n) : m.Formed k := by
  obtain ⟨i, hi, rfl⟩ := List.mem_map.mp h
  refine ⟨⟨_, _, rfl, rfl⟩, by simp [normalNode], fun input stream hInput => ?_⟩
  have hSource : input = i := by
    simp only [normalNode, List.mem_singleton, Pad.source.injEq] at hInput
    exact hInput.1
  have hRange := List.mem_range.mp hi
  omega

end

variable (s : Strategy) (canvas : Canvas) (t : Timeline T) (pixels : String) {n k : Nat}

theorem slideshowChain_sources_ne_nil (hn : 0 < n) : (slideshowChain t pixels n).sources ≠ [] := by
  simp only [slideshowChain, ne_eq, List.map_eq_nil_iff, List.range_eq_nil]
  omega

theorem labels_slideshowNodes (hn : 0 < n) :
    (slideshowNodes s canvas t pixels n).map Node.label =
      Chain.names [("norm", n), ("fadein", s.entranceCount n), ("xfade", n - 1)] ++ ["output"] := by
  have hLength : (slideshowChain t pixels n).sources.length = n := by simp [slideshowChain]
  rw [slideshowNodes, List.map_append, labels_normalNodes,
    s.labels_chainNodes _ (slideshowChain_sources_ne_nil t pixels hn), hLength]
  simp [Chain.names]

theorem outputs_slideshowNodes (hn : 0 < n) :
    (slideshowNodes s canvas t pixels n).flatMap Node.outputs =
      Chain.names [("v", n), ("f", s.entranceCount n), (s.stem, n - 1)] ++ [outputLink] := by
  have hLength : (slideshowChain t pixels n).sources.length = n := by simp [slideshowChain]
  rw [slideshowNodes, List.flatMap_append, outputs_normalNodes,
    s.outputs_chainNodes _ (slideshowChain_sources_ne_nil t pixels hn), hLength]
  simp only [Chain.names, List.flatMap_cons, List.append_assoc]
  rfl

theorem reads_slideshowNodes_perm (hn : 0 < n) :
    ((slideshowNodes s canvas t pixels n).flatMap Node.reads ++ [outputLink]).Perm
      ((slideshowNodes s canvas t pixels n).flatMap Node.outputs) := by
  rw [slideshowNodes, List.flatMap_append, List.flatMap_append, reads_normalNodes,
    outputs_normalNodes, List.nil_append]
  exact s.reads_chainNodes_perm _ (slideshowChain_sources_ne_nil t pixels hn)

theorem outputs_nodup_slideshowNodes (kind : TransitionKind) (offsets : FadeOffsets)
    (hn : 0 < n) : ((slideshowNodes (Strategy.ofKind kind offsets) canvas t pixels n).flatMap
      Node.outputs).Nodup := by
  rw [outputs_slideshowNodes _ _ _ _ hn]
  apply Chain.nodup_names_concat
  · cases kind <;> simp [Strategy.ofKind, Strategy.stem]
  · cases kind <;> simp [Strategy.ofKind, Strategy.stem, outputLink]

theorem wired_slideshowNodes (kind : TransitionKind) (offsets : FadeOffsets) (hn : 0 < n)
    (hk : n ≤ k) :
    Node.Wired k (slideshowNodes (Strategy.ofKind kind offsets) canvas t pixels n) where
  formed m hm := by
    rcases List.mem_append.mp hm with hm | hm
    · exact formed_of_mem_normalNodes hk hm
    · exact Strategy.formed_of_mem_chainNodes _ hm
  labels_nodup := by
    rw [labels_slideshowNodes _ _ _ _ hn]
    apply Chain.nodup_names_concat <;> simp
  outputs_nodup := outputs_nodup_slideshowNodes canvas t pixels kind offsets hn
  reads_nodup :=
    ((reads_slideshowNodes_perm _ _ _ _ hn).nodup_iff.mpr
      (outputs_nodup_slideshowNodes canvas t pixels kind offsets hn)).of_append_left
  ordered := by
    rw [slideshowNodes, Node.ordered_append, outputs_normalNodes, List.nil_append]
    refine ⟨Node.ordered_of_reads_subset ?_, ?_⟩
    · rw [reads_normalNodes]
      exact List.Subset.refl _
    · exact Strategy.ordered_chainNodes _ (slideshowChain_sources_ne_nil t pixels hn) fun _ h => h

/-! ## The parts of the chain -/

namespace Strategy

/-- The link that carries picture `i` of `n` into the blends. -/
def entry (s : Strategy) (n i : Nat) : String :=
  if s.fadesIn n then Chain.numbered "f" i else normalizedLink i

def laterEntries (s : Strategy) (n : Nat) : List String :=
  (List.range' 1 (n - 1)).map (s.entry n)

/-- The link that carries all `n` pictures into the output node. -/
def lastLink (s : Strategy) (n : Nat) : String :=
  Chain.blendedLink s.stem 0 (s.entry n 0) (s.laterEntries n)

theorem length_laterEntries (n : Nat) : (s.laterEntries n).length = n - 1 := by
  simp [laterEntries]

theorem getElem?_laterEntries {n j : Nat} {link : String}
    (h : (s.laterEntries n)[j]? = some link) : 1 + j < n ∧ link = s.entry n (1 + j) := by
  obtain ⟨hj, rfl⟩ := List.getElem?_eq_some_iff.mp h
  rw [length_laterEntries] at hj
  exact ⟨by omega, by simp [laterEntries]⟩

theorem entering_slideshowChain (hn : 0 < n) :
    s.entering (slideshowChain t pixels n) = s.entry n 0 :: s.laterEntries n := by
  have hEntering : s.entering (slideshowChain t pixels n) = (List.range n).map (s.entry n) := by
    unfold entering entry
    cases hFades : s.fadesIn n <;>
      simp [slideshowChain, hFades, Chain.fadedLinks]
  obtain ⟨k, rfl⟩ := Nat.exists_eq_add_one.mpr hn
  rw [hEntering, laterEntries, List.range_eq_range', List.range'_succ, List.map_cons]
  rfl

theorem entrances_slideshowChain :
    s.entrances (slideshowChain t pixels n) =
      if s.fadesIn n then
        (List.range n).map fun i => Chain.entranceNode t.blend i (normalizedLink i)
      else [] := by
  have hLength : (slideshowChain t pixels n).sources.length = n := by simp [slideshowChain]
  rw [entrances, hLength]
  refine if_congr Iff.rfl ?_ rfl
  apply List.ext_getElem
  · simp [Chain.entranceNodes, hLength]
  · intro i _ _
    simp [Chain.entranceNodes, slideshowChain]

theorem chainNodes_slideshowChain (hn : 0 < n) :
    s.chainNodes (slideshowChain t pixels n) =
      s.entrances (slideshowChain t pixels n) ++
        Chain.blendNodes s.style t.blend (s.start t) s.stem 0 (s.entry n 0) (s.laterEntries n) ++
        [(slideshowChain t pixels n).outputNode (s.lastLink n) (s.exits t n)] := by
  have hLength : (slideshowChain t pixels n).sources.length = n := by simp [slideshowChain]
  rw [chainNodes, entering_slideshowChain s t pixels hn, hLength]
  rfl

end Strategy

end Diaporama
