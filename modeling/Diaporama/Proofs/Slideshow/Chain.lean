import Diaporama.Proofs.Graph.Sequence
import Diaporama.Proofs.Slideshow.Names

/-!
# The nodes of a chain

Every plan has the same three parts: entrances, if the style fades in, blends from left to right,
and the output. Whatever the links are called, a chain reads its sources and all it writes but the
sink, each once.
-/

namespace Diaporama

variable {T : Type}

/-! ## Blends -/

namespace Chain

variable (style : BlendStyle) (duration : T) (offset : Nat → T) (stem : String)

theorem labels_blendNodes (i : Nat) (first : String) (rest : List String) :
    (blendNodes style duration offset stem i first rest).map Node.label =
      (List.range' i rest.length).map (numbered "xfade") := by
  induction rest generalizing i first with
  | nil => rfl
  | cons second rest ih =>
      rw [blendNodes, List.map_cons, ih, List.length_cons, List.range'_succ, List.map_cons]
      rfl

theorem outputs_blendNodes (i : Nat) (first : String) (rest : List String) :
    (blendNodes style duration offset stem i first rest).flatMap Node.outputs =
      (List.range' i rest.length).map (numbered stem) := by
  induction rest generalizing i first with
  | nil => rfl
  | cons second rest ih =>
      rw [blendNodes, List.flatMap_cons, ih, List.length_cons, List.range'_succ, List.map_cons]
      rfl

/-- Blends read what they join and what they write, each once, but for the link they end in. -/
theorem reads_blendNodes_perm (i : Nat) (first : String) (rest : List String) :
    ((blendNodes style duration offset stem i first rest).flatMap Node.reads ++
      [blendedLink stem i first rest]).Perm
      (first :: rest ++ (blendNodes style duration offset stem i first rest).flatMap Node.outputs) := by
  induction rest generalizing i first with
  | nil => exact List.Perm.refl _
  | cons second rest ih =>
      have hRest := ih (i + 1) (numbered stem i)
      simp only [blendNodes, blendedLink, List.flatMap_cons, blendNode, Node.reads,
        List.filterMap_cons, Pad.link?, List.filterMap_nil, List.cons_append, List.nil_append]
      refine (hRest.cons second).cons first |>.trans (.cons first (.cons second ?_))
      exact List.perm_middle.symm

theorem blendedLink_mem (i : Nat) (first : String) (rest : List String) :
    blendedLink stem i first rest ∈
      first :: (blendNodes style duration offset stem i first rest).flatMap Node.outputs := by
  induction rest generalizing i first with
  | nil => exact List.mem_singleton_self first
  | cons second rest ih =>
      exact List.mem_cons_of_mem first (ih (i + 1) (numbered stem i))

theorem ordered_blendNodes {known : List String} {first : String} {rest : List String}
    (hFirst : first ∈ known) (hRest : rest ⊆ known) (i : Nat) :
    Node.Ordered known (blendNodes style duration offset stem i first rest) := by
  induction rest generalizing known i first with
  | nil => trivial
  | cons second rest ih =>
      obtain ⟨hSecond, hRest⟩ := List.cons_subset.mp hRest
      refine ⟨?_, ih ?_ (List.subset_append_of_subset_left _ hRest) (i + 1)⟩
      · simp [blendNode, Node.reads, Pad.link?, hFirst, hSecond]
      · exact List.mem_append_right _ (List.mem_singleton_self _)

theorem formed_of_mem_blendNodes {k i : Nat} {first : String} {rest : List String} {n : Node T}
    (h : n ∈ blendNodes style duration offset stem i first rest) : n.Formed k := by
  induction rest generalizing i first with
  | nil => cases h
  | cons second rest ih =>
      rcases List.mem_cons.mp h with rfl | h
      · exact ⟨⟨_, _, rfl, rfl⟩, by simp [blendNode], by simp [blendNode]⟩
      · exact ih h

theorem filters_of_mem_blendNodes {style : BlendStyle} {duration : T} {offset : Nat → T}
    {stem first : String} {i : Nat} {rest : List String} {m : Node T}
    (h : m ∈ blendNodes style duration offset stem i first rest) :
    ∃ k < i + rest.length, m.filters = [.blend style duration (offset k)] := by
  induction rest generalizing i first with
  | nil => cases h
  | cons second rest ih =>
      rw [blendNodes] at h
      rcases List.mem_cons.mp h with rfl | h
      · exact ⟨i, by simp, rfl⟩
      · obtain ⟨k, hk, hFilters⟩ := ih h
        exact ⟨k, by rw [List.length_cons]; omega, hFilters⟩

end Chain

/-! ## Whole chains -/

variable [Seconds T]

namespace Chain

theorem labels_entranceNodes (c : Chain T) :
    c.entranceNodes.map Node.label = (List.range c.sources.length).map (numbered "fadein") := by
  rw [entranceNodes, List.map_map, List.range_eq_range', ← List.zipIdx_map_snd 0 c.sources,
    List.map_map]
  rfl

theorem outputs_entranceNodes (c : Chain T) :
    c.entranceNodes.flatMap Node.outputs = c.fadedLinks := by
  rw [entranceNodes, List.flatMap_map, fadedLinks, List.range_eq_range',
    ← List.zipIdx_map_snd 0 c.sources, List.map_map, ← List.flatMap_pure_eq_map]
  rfl

theorem reads_entranceNodes (c : Chain T) : c.entranceNodes.flatMap Node.reads = c.sources := by
  rw [entranceNodes, List.flatMap_map]
  exact (List.flatMap_pure_eq_map Prod.fst _).trans (List.zipIdx_map_fst 0 c.sources)

theorem formed_of_mem_entranceNodes {c : Chain T} {k : Nat} {n : Node T}
    (h : n ∈ c.entranceNodes) : n.Formed k := by
  obtain ⟨⟨source, i⟩, -, rfl⟩ := List.mem_map.mp h
  exact ⟨⟨_, _, rfl, rfl⟩, by simp [entranceNode], by simp [entranceNode]⟩

theorem formed_outputNode (c : Chain T) (k : Nat) (last : String) {filters : List (Filter T)}
    (hFilters : ∀ f ∈ filters, f.arity = 1) : (c.outputNode last filters).Formed k where
  arity := by
    cases filters with
    | nil => exact ⟨_, _, rfl, rfl⟩
    | cons first rest => exact ⟨first, _, rfl, (hFilters first List.mem_cons_self).symm⟩
  outputs_ne := by simp [outputNode]
  inRange := by simp [outputNode]

end Chain

namespace Strategy

/-- Whether each of `n` pictures passes an entrance before it is joined to others. -/
def fadesIn (n : Nat) : Strategy → Bool
  | blend _ _ => false
  | fade _ => decide (2 ≤ n)

def entranceCount (s : Strategy) (n : Nat) : Nat :=
  if s.fadesIn n then n else 0

def style : Strategy → BlendStyle
  | blend style _ => style
  | fade _ => .fade

/-- What the names of the links between the blends begin with. -/
def stem : Strategy → String
  | blend _ stem => stem
  | fade _ => "x"

def start (t : Timeline T) : Strategy → Nat → T
  | blend _ _ => t.offset
  | fade offsets => fadeOffset t offsets

def exits (t : Timeline T) (n : Nat) : Strategy → List (Filter T)
  | blend _ _ => []
  | fade offsets => if 2 ≤ n then [.fade .toBlack (exitStart t n offsets) t.blend] else []

variable (s : Strategy) (c : Chain T)

def entrances : List (Node T) :=
  if s.fadesIn c.sources.length then c.entranceNodes else []

/-- The links that are joined: those behind the entrances, or the sources themselves. -/
def entering : List String :=
  if s.fadesIn c.sources.length then c.fadedLinks else c.sources

/-- The nodes of a chain in the order in which they are pushed. -/
def chainNodes : List (Node T) :=
  match s.entering c with
  | [] => []
  | first :: rest =>
    s.entrances c ++
      Chain.blendNodes s.style c.timeline.blend (s.start c.timeline) s.stem 0 first rest ++
      [c.outputNode (Chain.blendedLink s.stem 0 first rest) (s.exits c.timeline c.sources.length)]

theorem length_entering : (s.entering c).length = c.sources.length := by
  unfold entering
  split
  · simp [Chain.fadedLinks]
  · rfl

theorem exists_entering_eq_cons (h : c.sources ≠ []) :
    ∃ first rest, s.entering c = first :: rest ∧ rest.length = c.sources.length - 1 := by
  cases hEntering : s.entering c with
  | nil =>
      have hLength := s.length_entering c
      rw [hEntering, List.length_nil] at hLength
      exact absurd (List.eq_nil_of_length_eq_zero hLength.symm) h
  | cons first rest =>
      have hLength := s.length_entering c
      rw [hEntering, List.length_cons] at hLength
      exact ⟨first, rest, rfl, by omega⟩

theorem plan?_nodes (h : c.sources ≠ []) :
    ∃ steps, s.plan? c = some steps ∧ steps.filterMap Step.node? = s.chainNodes c := by
  have hNode : (Step.node? ∘ Step.node : Node T → Option (Node T)) = some := rfl
  have hEvent : (Step.node? ∘ Step.event : Event T → Option (Node T)) = fun _ => none := rfl
  unfold plan? chainNodes
  split
  · contradiction
  · rename_i only hSources
    refine ⟨_, rfl, ?_⟩
    cases s <;> simp [entering, entrances, fadesIn, exits, hSources, Step.node?,
      Chain.blendNodes, Chain.blendedLink]
  · rename_i first rest hMany hSources
    have hLength : 2 ≤ c.sources.length := by
      cases rest with
      | nil => exact absurd rfl hMany
      | cons second rest => simp [hSources]
    cases s with
    | blend style stem =>
        refine ⟨_, rfl, ?_⟩
        simp [blendSteps, entering, entrances, fadesIn, exits, hSources, Step.node?,
          List.filterMap_map, hNode, Strategy.style, Strategy.stem, start]
    | fade offsets =>
        refine ⟨_, rfl, ?_⟩
        unfold fadeSteps
        cases hFaded : c.fadedLinks with
        | nil => simp [entering, fadesIn, hLength, hFaded]
        | cons faded links =>
            simp [entering, entrances, fadesIn, exits, hLength, hFaded, Step.node?,
              List.filterMap_map, hNode, hEvent, Strategy.style, Strategy.stem, start]

theorem labels_chainNodes (h : c.sources ≠ []) :
    (s.chainNodes c).map Node.label =
      Chain.names [("fadein", s.entranceCount c.sources.length), ("xfade", c.sources.length - 1)] ++
        ["output"] := by
  obtain ⟨first, rest, hEntering, hRest⟩ := s.exists_entering_eq_cons c h
  have hEntrances : (s.entrances c).map Node.label =
      (List.range (s.entranceCount c.sources.length)).map (Chain.numbered "fadein") := by
    unfold entrances entranceCount
    split
    · exact Chain.labels_entranceNodes c
    · rfl
  simp only [chainNodes, hEntering, List.map_append, hEntrances, Chain.labels_blendNodes, hRest,
    Chain.names, List.flatMap_cons, List.flatMap_nil, List.append_nil, List.range_eq_range',
    List.map_cons, List.map_nil, Chain.outputNode]

theorem outputs_chainNodes (h : c.sources ≠ []) :
    (s.chainNodes c).flatMap Node.outputs =
      Chain.names [("f", s.entranceCount c.sources.length), (s.stem, c.sources.length - 1)] ++
        [c.sink] := by
  obtain ⟨first, rest, hEntering, hRest⟩ := s.exists_entering_eq_cons c h
  have hEntrances : (s.entrances c).flatMap Node.outputs =
      (List.range (s.entranceCount c.sources.length)).map (Chain.numbered "f") := by
    unfold entrances entranceCount
    split
    · exact Chain.outputs_entranceNodes c
    · rfl
  simp only [chainNodes, hEntering, List.flatMap_append, hEntrances, Chain.outputs_blendNodes,
    hRest, Chain.names, List.flatMap_cons, List.flatMap_nil, List.append_nil,
    List.range_eq_range', Chain.outputNode]

/-- What the entrances read is what enters without them; what they write enters instead. -/
theorem reads_entrances_perm :
    ((s.entrances c).flatMap Node.reads ++ s.entering c).Perm
      (c.sources ++ (s.entrances c).flatMap Node.outputs) := by
  unfold entrances entering
  split
  · rw [Chain.reads_entranceNodes, Chain.outputs_entranceNodes]
  · simp

theorem reads_chainNodes_perm (h : c.sources ≠ []) :
    ((s.chainNodes c).flatMap Node.reads ++ [c.sink]).Perm
      (c.sources ++ (s.chainNodes c).flatMap Node.outputs) := by
  obtain ⟨first, rest, hEntering, -⟩ := s.exists_entering_eq_cons c h
  have hEntrances := s.reads_entrances_perm c
  have hBlends := Chain.reads_blendNodes_perm s.style c.timeline.blend (s.start c.timeline) s.stem 0
    first rest
  rw [hEntering] at hEntrances
  simp only [chainNodes, hEntering, List.flatMap_append, List.flatMap_singleton, Chain.outputNode,
    Node.reads, List.filterMap_cons, Pad.link?, List.filterMap_nil, ← List.append_assoc]
  refine List.Perm.append_right _ ?_
  rw [List.append_assoc]
  refine (hBlends.append_left _).trans ?_
  rw [← List.append_assoc]
  exact hEntrances.append_right _

theorem ordered_chainNodes {c : Chain T} {known : List String} (h : c.sources ≠ [])
    (hSources : c.sources ⊆ known) : Node.Ordered known (s.chainNodes c) := by
  obtain ⟨first, rest, hEntering, -⟩ := s.exists_entering_eq_cons c h
  have hEntrances : Node.Ordered known (s.entrances c) := by
    unfold entrances
    split
    · exact Node.ordered_of_reads_subset (by rwa [Chain.reads_entranceNodes])
    · trivial
  have hKnown : s.entering c ⊆ known ++ (s.entrances c).flatMap Node.outputs := by
    unfold entering entrances
    split
    · rw [Chain.outputs_entranceNodes]
      exact List.subset_append_right _ _
    · exact List.subset_append_of_subset_left _ hSources
  have hLast := Chain.blendedLink_mem s.style c.timeline.blend (s.start c.timeline) s.stem 0 first rest
  rw [hEntering] at hKnown
  obtain ⟨hFirst, hRest⟩ := List.cons_subset.mp hKnown
  simp only [chainNodes, hEntering, Node.ordered_append]
  refine ⟨⟨hEntrances, Chain.ordered_blendNodes _ _ _ _ hFirst hRest 0⟩, ?_, trivial⟩
  intro link hLink
  have hLink : link = Chain.blendedLink s.stem 0 first rest := by
    simpa [Chain.outputNode, Node.reads, Pad.link?] using hLink
  rw [hLink, List.flatMap_append, ← List.append_assoc]
  rcases List.mem_cons.mp hLast with hLast | hLast
  · rw [hLast]
    exact List.mem_append_left _ hFirst
  · exact List.mem_append_right _ hLast

theorem exists_of_mem_exits (t : Timeline T) (n : Nat) {f : Filter T} (h : f ∈ s.exits t n) :
    ∃ offsets, s = fade offsets ∧ 2 ≤ n ∧ f = .fade .toBlack (exitStart t n offsets) t.blend := by
  cases s with
  | blend style stem => cases h
  | fade offsets => exact ⟨offsets, rfl, by simpa [exits] using h⟩

theorem arity_of_mem_exits (t : Timeline T) (n : Nat) {f : Filter T} (h : f ∈ s.exits t n) :
    f.arity = 1 := by
  obtain ⟨offsets, -, -, rfl⟩ := s.exists_of_mem_exits t n h
  rfl

theorem formed_of_mem_chainNodes {c : Chain T} {k : Nat} {n : Node T} (h : n ∈ s.chainNodes c) :
    n.Formed k := by
  unfold chainNodes at h
  split at h
  · cases h
  rcases List.mem_append.mp h with h | h
  · rcases List.mem_append.mp h with h | h
    · unfold entrances at h
      split at h
      · exact Chain.formed_of_mem_entranceNodes h
      · cases h
    · exact Chain.formed_of_mem_blendNodes _ _ _ _ h
  · rw [List.mem_singleton.mp h]
    exact Chain.formed_outputNode c k _ fun f hf => s.arity_of_mem_exits _ _ hf

end Strategy

end Diaporama
