import Diaporama.Proofs.Slideshow.Decision

/-!
# Another kind of transition

Two slideshows that differ in the kind of their transitions alone are told apart by nothing but
their graphs. Where both kinds are plain blends, one graph is the other with the blends drawn in
another style and the links between them named by another stem.
-/

namespace Diaporama

variable {T : Type}

/-! ## Renamed links and restyled nodes -/

namespace Chain

variable {stem stem' link : String} {n : Nat}

/-- The first `n` links of one stem go by another stem, and all others keep their names. -/
def renamed (stem stem' : String) (n : Nat) (link : String) : String :=
  match (List.range n).find? fun i => numbered stem i = link with
  | some i => numbered stem' i
  | none => link

theorem renamed_numbered {i : Nat} (hi : i < n) :
    renamed stem stem' n (numbered stem i) = numbered stem' i := by
  have hFind : (List.range n).find? (fun j => numbered stem j = numbered stem i) = some i := by
    rw [List.find?_eq_some_iff_getElem]
    refine ⟨decide_eq_true rfl, i, by simpa using hi, List.getElem_range _, ?_⟩
    intro j hj
    simp only [List.getElem_range, numbered_inj, Bool.not_eq_true', decide_eq_false_iff_not]
    omega
  rw [renamed, hFind]

theorem renamed_of_ne (h : ∀ i, numbered stem i ≠ link) : renamed stem stem' n link = link := by
  have hFind : (List.range n).find? (fun i => numbered stem i = link) = none := by
    rw [List.find?_eq_none]
    intro i _
    simpa using h i
  rw [renamed, hFind]

end Chain

def Pad.rename (f : String → String) : Pad → Pad
  | source input stream => source input stream
  | link name => link (f name)

def Filter.restyle (style : BlendStyle) : Filter T → Filter T
  | blend _ duration offset => blend style duration offset
  | f => f

def Node.restyle (style : BlendStyle) (f : String → String) (n : Node T) : Node T :=
  { n with
    filters := n.filters.map (·.restyle style)
    inputs := n.inputs.map (·.rename f)
    outputs := n.outputs.map f }

/-! ## The chain in another style -/

namespace Chain

variable {f : String → String} {stem stem' : String}

theorem map_restyle_blendNodes (style style' : BlendStyle) (duration : T) (offset : Nat → T)
    (i : Nat) (first : String) {rest : List String}
    (hStem : ∀ k < i + rest.length, f (numbered stem k) = numbered stem' k)
    (hRest : ∀ link ∈ rest, f link = link) :
    (blendNodes style duration offset stem i first rest).map (Node.restyle style' f) =
      blendNodes style' duration offset stem' i (f first) rest := by
  induction rest generalizing i first with
  | nil => rfl
  | cons second rest ih =>
    rw [List.forall_mem_cons] at hRest
    rw [List.length_cons] at hStem
    have hOut : f (numbered stem i) = numbered stem' i := hStem i (by omega)
    have hTail := ih (i + 1) (numbered stem i) (fun k hk => hStem k (by omega)) hRest.2
    rw [hOut] at hTail
    simp only [blendNodes, List.map_cons, hTail, Node.restyle, blendNode, Filter.restyle,
      Pad.rename, List.map_nil, hOut, hRest.1]

theorem rename_blendedLink (i : Nat) (first : String) {rest : List String}
    (hStem : ∀ k < i + rest.length, f (numbered stem k) = numbered stem' k) :
    f (blendedLink stem i first rest) = blendedLink stem' i (f first) rest := by
  induction rest generalizing i first with
  | nil => rfl
  | cons second rest ih =>
    rw [List.length_cons] at hStem
    have hOut : f (numbered stem i) = numbered stem' i := hStem i (by omega)
    rw [blendedLink, blendedLink, ih _ _ fun k hk => hStem k (by omega), hOut]

end Chain

variable [Seconds T]

def laterLinks (n : Nat) : List String :=
  (List.range' 1 (n - 1)).map normalizedLink

/-- Plain blends join the normalized pictures as they are, and nothing follows them. -/
theorem slideshowNodes_blend (style : BlendStyle) (stem : String) (canvas : Canvas)
    (t : Timeline T) (pixels : String) {n : Nat} (hn : 0 < n) :
    slideshowNodes (.blend style stem) canvas t pixels n =
      normalNodes canvas n ++
        (Chain.blendNodes style t.blend t.offset stem 0 (normalizedLink 0) (laterLinks n) ++
          [(slideshowChain t pixels n).outputNode
            (Chain.blendedLink stem 0 (normalizedLink 0) (laterLinks n)) []]) := by
  rw [slideshowNodes, Strategy.chainNodes_slideshowChain _ t pixels hn]
  rfl

/-- What a renaming does to the links of a chain of `n` pictures: it passes from one stem to another
and touches neither the normalized pictures nor the end. -/
structure Chain.Renames (f : String → String) (stem stem' : String) (n : Nat) : Prop where
  blended : ∀ i < n - 1, f (numbered stem i) = numbered stem' i
  normalized : ∀ i, f (normalizedLink i) = normalizedLink i
  output : f outputLink = outputLink

theorem map_restyle_slideshowNodes {f : String → String} {stem stem' : String} {n : Nat}
    (hf : Chain.Renames f stem stem' n) (style style' : BlendStyle) (canvas : Canvas)
    (t : Timeline T) (pixels : String) (hn : 0 < n) :
    (slideshowNodes (.blend style stem) canvas t pixels n).map (Node.restyle style' f) =
      slideshowNodes (.blend style' stem') canvas t pixels n := by
  have hStem : ∀ k < 0 + (laterLinks n).length,
      f (Chain.numbered stem k) = Chain.numbered stem' k := by
    intro k hk
    rw [laterLinks, List.length_map, List.length_range', Nat.zero_add] at hk
    exact hf.blended k hk
  have hLater : ∀ link ∈ laterLinks n, f link = link := by
    rw [laterLinks, List.forall_mem_map]
    intro i _
    exact hf.normalized i
  have hNormal : (normalNodes canvas n : List (Node T)).map (Node.restyle style' f) =
      normalNodes canvas n := by
    rw [normalNodes, List.map_map]
    apply List.map_congr_left
    intro i _
    simp [Node.restyle, normalNode, Filter.restyle, Pad.rename, hf.normalized]
  have hBlends := Chain.map_restyle_blendNodes style style' t.blend t.offset 0
    (normalizedLink 0) hStem hLater
  have hLast := Chain.rename_blendedLink 0 (normalizedLink 0) hStem
  rw [hf.normalized] at hBlends hLast
  rw [slideshowNodes_blend style stem canvas t pixels hn,
    slideshowNodes_blend style' stem' canvas t pixels hn]
  simp [hNormal, hBlends, Node.restyle, Chain.outputNode, Filter.restyle, Pad.rename, hLast,
    slideshowChain, hf.output]

/-! ## Requests of another kind -/

theorem Chain.renames_renamed {stem : String} (hStem : stem ≠ "")
    (hNormal : stem.toList.head? ≠ some 'v') (hOutput : stem.toList.head? ≠ some 'o')
    (stem' : String) (n : Nat) : Renames (renamed stem stem' (n - 1)) stem stem' n where
  blended _ hi := renamed_numbered hi
  normalized i := by
    apply renamed_of_ne
    intro k hLink
    have hHead := congrArg (fun link => link.toList.head?) hLink
    rw [head?_numbered hStem] at hHead
    exact hNormal (hHead.trans (head?_numbered (by decide) i))
  output := by
    apply renamed_of_ne
    intro k hLink
    have hHead := congrArg (fun link => link.toList.head?) hLink
    rw [head?_numbered hStem] at hHead
    exact hOutput hHead

namespace Strategy

theorem ofKind_eq_blend {kind : TransitionKind} (h : kind ≠ .fade) (offsets : FadeOffsets) :
    ofKind kind offsets = .blend (ofKind kind offsets).style (ofKind kind offsets).stem := by
  cases kind with
  | fade => exact absurd rfl h
  | _ => rfl

theorem head?_stem_ofKind_ne (kind : TransitionKind) (offsets : FadeOffsets) :
    (ofKind kind offsets).stem ≠ "" ∧ (ofKind kind offsets).stem.toList.head? ≠ some 'v' ∧
      (ofKind kind offsets).stem.toList.head? ≠ some 'o' := by
  cases kind <;> simp [ofKind, stem]

end Strategy

namespace Request

def withTransition (r : Request T) (kind : TransitionKind) : Request T :=
  { r with settings.transition := kind }

omit [Seconds T] in
theorem Textual.withTransition {r : Request T} {kind : TransitionKind}
    (h : (r.withTransition kind).Textual) (kind' : TransitionKind) :
    (r.withTransition kind').Textual :=
  ⟨h.images, h.audio, h.output⟩

/-- Only the graph and the length of the stream know the kind of the transitions. -/
theorem job_withTransition (r : Request T) (c : Config.Checked T) (t : Timeline T)
    (kind kind' : TransitionKind) :
    (r.withTransition kind').job c t =
      { (r.withTransition kind).job c t with
        graph := ((r.withTransition kind').job c t).graph
        duration := ((r.withTransition kind').job c t).duration } := rfl

theorem toList_nodes_job (r : Request T) (c : Config.Checked T) (t : Timeline T) :
    (r.job c t).graph.nodes.toList =
      slideshowNodes (Strategy.ofKind r.settings.transition c.config.fadeOffsets)
        r.settings.aspect.canvas t c.config.encoder.pixels r.images.length :=
  toList_nodes_slideshowGraph _ _ _ _ _ _

theorem duration_withTransition (r : Request T) (c : Config.Checked T) (t : Timeline T)
    {kind kind' : TransitionKind} (hKind : kind ≠ .fade) (hKind' : kind' ≠ .fade) :
    ((r.withTransition kind').job c t).duration = ((r.withTransition kind).job c t).duration := by
  change (Strategy.ofKind kind' _).duration t _ = (Strategy.ofKind kind _).duration t _
  rw [Strategy.ofKind_eq_blend hKind, Strategy.ofKind_eq_blend hKind']
  rfl

end Request

theorem Job.exists_args_eq (j : Job Float) :
    ∃ later, ∀ (graph : Graph Float) (duration : Float),
      { j with graph := graph, duration := duration : Job Float }.args =
        j.inputs.flatMap Input.args ++ "-filter_complex" :: graph.expression :: later := by
  refine ⟨["-map", "[" ++ j.videoLink ++ "]"] ++ audioMap j.audio ++ videoArgs j.encoder ++
    audioArgs j.encoder j.audio ++ [j.output.display], fun graph duration => ?_⟩
  simp [args]

/-- A request that is assembled with one kind of transition is assembled with every other. The jobs
have the same inputs, settings and output, and their arguments differ in the text of the graph at
most. Between two kinds of plain blends even the graphs are the same up to the style of the blends
and the stem of the links between them: labels, roles, times and all other links stay. -/
theorem Request.assemble_transitions (r : Request Float) (c : Config.Checked Float)
    {kind : TransitionKind} {j : Job Float}
    (hJob : ((r.withTransition kind).assemble c).result = .ok j) (kind' : TransitionKind) :
    ∃ j', ((r.withTransition kind').assemble c).result = .ok j' ∧
      j' = { j with graph := j'.graph, duration := j'.duration } ∧
      (∃ later,
        j.args = j.inputs.flatMap Input.args ++
          "-filter_complex" :: j.graph.expression :: later ∧
        j'.args = j.inputs.flatMap Input.args ++
          "-filter_complex" :: j'.graph.expression :: later) ∧
      (kind ≠ .fade → kind' ≠ .fade →
        let s := Strategy.ofKind kind c.config.fadeOffsets
        let s' := Strategy.ofKind kind' c.config.fadeOffsets
        let rename := Chain.renamed s.stem s'.stem (r.images.length - 1)
        j'.graph.nodes.toList = j.graph.nodes.toList.map (Node.restyle s'.style rename) ∧
        Chain.Renames rename s.stem s'.stem r.images.length ∧
        j'.graph.inputCount = j.graph.inputCount ∧ j'.duration = j.duration) := by
  obtain ⟨⟨hImages, hOutput, hTextual⟩, t, hTimes, rfl⟩ := result_assemble_eq_ok_iff.mp hJob
  have hOther : ((r.withTransition kind').assemble c).result =
      .ok ((r.withTransition kind').job c t) :=
    result_assemble_eq_ok_iff.mpr
      ⟨⟨hImages, hOutput, hTextual.withTransition kind'⟩, t, hTimes, rfl⟩
  refine ⟨_, hOther, r.job_withTransition c t kind kind', ?_, fun hKind hKind' => ?_⟩
  · obtain ⟨later, hArgs⟩ := ((r.withTransition kind).job c t).exists_args_eq
    exact ⟨later, hArgs _ _, hArgs _ _⟩
  · intro s s' rename
    obtain ⟨hStem, hNormal, hSink⟩ :=
      Strategy.head?_stem_ofKind_ne kind c.config.fadeOffsets
    have hRenames : Chain.Renames rename s.stem s'.stem r.images.length :=
      Chain.renames_renamed hStem hNormal hSink s'.stem r.images.length
    have hCount : ((r.withTransition kind').job c t).graph.inputCount =
        ((r.withTransition kind).job c t).graph.inputCount :=
      (Graph.inputCount_insertAll _ _).trans (Graph.inputCount_insertAll _ _).symm
    refine ⟨?_, hRenames, hCount, r.duration_withTransition c t hKind hKind'⟩
    have hNodes := map_restyle_slideshowNodes hRenames s.style s'.style r.settings.aspect.canvas t
      c.config.encoder.pixels (List.length_pos_iff.mpr hImages)
    rw [← Strategy.ofKind_eq_blend hKind, ← Strategy.ofKind_eq_blend hKind'] at hNodes
    rw [toList_nodes_job, toList_nodes_job]
    exact hNodes.symm

/-- Three pictures with a soundtrack, from dissolves to zooms: the links `b0` and `b1` between the
blends become `z0` and `z1`. -/
theorem Request.assemble_transitions_zoom :
    let r : Request Float := ⟨["a.png", "b.png", "c.png"].map fun s => .ofPath (.ofString s),
      some (.ofString "s.mp3"), .usual, .ofString "o.mp4"⟩
    ∃ j j', ((r.withTransition .dissolve).assemble .usual).result = .ok j ∧
      ((r.withTransition .zoom).assemble .usual).result = .ok j' ∧
      j'.graph.nodes.toList =
        j.graph.nodes.toList.map (Node.restyle .zoomIn (Chain.renamed "b" "z" 2)) ∧
      ["b0", "b1", "v1", "outv"].map (Chain.renamed "b" "z" 2) = ["z0", "z1", "v1", "outv"] := by
  intro r
  obtain ⟨j, hJob⟩ : ∃ j, ((r.withTransition .dissolve).assemble .usual).result = .ok j :=
    ok_iff_accepted.mpr ⟨by simp [r, withTransition], by decide,
      ⟨by simp [r, withTransition, Image.ofPath], by simp [r, withTransition],
        by simp [r, withTransition]⟩, by decide, by decide⟩
  obtain ⟨j', hJob', -, -, hGraph⟩ := assemble_transitions r .usual hJob .zoom
  obtain ⟨hNodes, -⟩ := hGraph nofun nofun
  exact ⟨j, j', hJob, hJob', hNodes, by decide +kernel⟩

end Diaporama
