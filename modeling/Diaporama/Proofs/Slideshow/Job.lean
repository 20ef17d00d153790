import Diaporama.Proofs.Computation
import Diaporama.Proofs.Slideshow.Nodes

/-!
# The job of a request

Behind the checks of the request and of the two times nothing can fail: every push goes through and
the graph ends in the output link. So assembly is these checks followed by writing down one job.
-/

namespace Diaporama

variable {T : Type}

namespace Traced

variable {α β : Type}

@[simp] theorem result_bind (x : Traced T α) (f : α → Traced T β) :
    (x >>= f).result = x.result >>= fun a => (f a).result := by
  cases h : x.result with
  | ok a => rw [bind_of_ok h]; rfl
  | error e => rw [bind_of_error h]; rfl

@[simp] theorem result_pure (a : α) : (pure a : Traced T α).result = .ok a := rfl

@[simp] theorem result_emit (e : Event T) : (emit e).result = .ok () := rfl

@[simp] theorem result_emitAll (es : List (Event T)) : (emitAll es).result = .ok () := rfl

@[simp] theorem result_ofExcept (r : Except (Error T) α) : (ofExcept r).result = r := rfl

end Traced

variable [Seconds T]

/-- The graph of a slideshow of `n` pictures over `k` encoder inputs. -/
def slideshowGraph (s : Strategy) (canvas : Canvas) (t : Timeline T) (pixels : String) (n k : Nat) :
    Graph T :=
  (Graph.empty k).insertAll (slideshowNodes s canvas t pixels n)

@[simp] theorem toList_nodes_slideshowGraph (s : Strategy) (canvas : Canvas) (t : Timeline T)
    (pixels : String) (n k : Nat) :
    (slideshowGraph s canvas t pixels n k).nodes.toList = slideshowNodes s canvas t pixels n := by
  simp [slideshowGraph, Graph.empty]

section

variable (canvas : Canvas) (t : Timeline T) (pixels : String) {n k : Nat} (kind : TransitionKind)
  (offsets : FadeOffsets)

theorem pushAll_slideshowNodes (hn : 0 < n) (hk : n ≤ k) :
    (Graph.empty k : Graph T).pushAll
        (slideshowNodes (Strategy.ofKind kind offsets) canvas t pixels n) =
      .ok (slideshowGraph (Strategy.ofKind kind offsets) canvas t pixels n k) :=
  (Graph.sound_empty k).pushAll_eq_ok_iff.mpr
    ⟨wired_slideshowNodes canvas t pixels kind offsets hn hk, rfl⟩

theorem sound_slideshowGraph (hn : 0 < n) (hk : n ≤ k) :
    (slideshowGraph (Strategy.ofKind kind offsets) canvas t pixels n k).Sound :=
  (Graph.sound_empty k).of_pushAll (pushAll_slideshowNodes canvas t pixels kind offsets hn hk)

/-- The pushes of a slideshow go through one after the other, and the graph ends as it should. -/
theorem slideshow_builds (hn : 0 < n) (hk : n ≤ k) :
    let s := Strategy.ofKind kind offsets
    let normalized := (Graph.empty k).insertAll (normalNodes canvas n)
    (Graph.empty k : Graph T).pushAll (normalNodes canvas n) = .ok normalized ∧
    (s.build (slideshowChain t pixels n) normalized).graph = slideshowGraph s canvas t pixels n k ∧
    (s.build (slideshowChain t pixels n) normalized).result = .ok () ∧
    (slideshowGraph s canvas t pixels n k).validate outputLink = .ok () := by
  intro s normalized
  have hAll : (Graph.empty k : Graph T).pushAll (slideshowNodes s canvas t pixels n) =
      .ok (slideshowGraph s canvas t pixels n k) :=
    pushAll_slideshowNodes canvas t pixels kind offsets hn hk
  have hSound := sound_slideshowGraph canvas t pixels kind offsets hn hk
  obtain ⟨middle, hNormal, hChain⟩ := Graph.pushAll_append_eq_ok_iff.mp hAll
  have hMiddle : middle = normalized := ((Graph.sound_empty k).pushAll_eq_ok_iff.mp hNormal).2
  rw [hMiddle] at hNormal hChain
  obtain ⟨steps, hPlan, hSteps⟩ :=
    s.plan?_nodes (slideshowChain t pixels n) (slideshowChain_sources_ne_nil t pixels hn)
  have hFollow := Graph.follow_of_pushAll (hSteps ▸ hChain)
  refine ⟨hNormal, ?_, ?_, hSound.validate_of_perm ?_⟩
  · simp only [Strategy.build, hPlan, hFollow]
  · simp only [Strategy.build, hPlan, hFollow]
    rfl
  · rw [Graph.read, Graph.written, toList_nodes_slideshowGraph]
    exact reads_slideshowNodes_perm s canvas t pixels hn

end

/-- A sound graph that consists of the nodes of a slideshow. -/
structure Graph.IsSlideshow (g : Graph T) (s : Strategy) (canvas : Canvas) (t : Timeline T)
    (pixels : String) (n : Nat) : Prop where
  sound : g.Sound
  nodes : g.nodes.toList = slideshowNodes s canvas t pixels n
  pos : 0 < n

namespace Graph.IsSlideshow

variable {g : Graph T} {s : Strategy} {canvas : Canvas} {t : Timeline T} {pixels : String} {n : Nat}

theorem mem_nodes_iff (h : g.IsSlideshow s canvas t pixels n) {m : Node T} :
    m ∈ g.nodes ↔
      (∃ i < n, normalNode canvas i = m) ∨
      (s.fadesIn n = true ∧ ∃ i < n, Chain.entranceNode t.blend i (normalizedLink i) = m) ∨
      m ∈ Chain.blendNodes s.style t.blend (s.start t) s.stem 0 (s.entry n 0) (s.laterEntries n) ∨
      m = (slideshowChain t pixels n).outputNode (s.lastLink n) (s.exits t n) := by
  have hNormal : m ∈ normalNodes canvas n ↔ ∃ i < n, normalNode canvas i = m := by
    simp [normalNodes]
  have hEntrance : m ∈ s.entrances (slideshowChain t pixels n) ↔
      s.fadesIn n = true ∧ ∃ i < n, Chain.entranceNode t.blend i (normalizedLink i) = m := by
    rw [s.entrances_slideshowChain]
    cases s.fadesIn n <;> simp
  rw [← Array.mem_toList_iff, h.nodes, slideshowNodes, s.chainNodes_slideshowChain t pixels h.pos,
    List.mem_append, List.mem_append, List.mem_append, hNormal, hEntrance, List.mem_singleton,
    or_assoc]

theorem normalNode_mem (h : g.IsSlideshow s canvas t pixels n) {i : Nat} (hi : i < n) :
    normalNode canvas i ∈ g.nodes :=
  h.mem_nodes_iff.mpr (.inl ⟨i, hi, rfl⟩)

theorem entranceNode_mem (h : g.IsSlideshow s canvas t pixels n) (hFades : s.fadesIn n = true)
    {i : Nat} (hi : i < n) : Chain.entranceNode t.blend i (normalizedLink i) ∈ g.nodes :=
  h.mem_nodes_iff.mpr (.inr (.inl ⟨hFades, i, hi, rfl⟩))

theorem mem_of_mem_blendNodes (h : g.IsSlideshow s canvas t pixels n) :
    ∀ m ∈ Chain.blendNodes s.style t.blend (s.start t) s.stem 0 (s.entry n 0) (s.laterEntries n),
      m ∈ g.nodes :=
  fun _ hm => h.mem_nodes_iff.mpr (.inr (.inr (.inl hm)))

theorem outputNode_mem (h : g.IsSlideshow s canvas t pixels n) :
    (slideshowChain t pixels n).outputNode (s.lastLink n) (s.exits t n) ∈ g.nodes :=
  h.mem_nodes_iff.mpr (.inr (.inr (.inr rfl)))

theorem producer?_eq_some (h : g.IsSlideshow s canvas t pixels n) {m : Node T} {link : String}
    (hm : m ∈ g.nodes) (hLink : m.outputs = [link]) : g.producer? link = some m :=
  h.sound.producer?_eq_some_iff.mpr ⟨hm, hLink ▸ List.mem_singleton_self link⟩

end Graph.IsSlideshow

namespace Source

theorem map_index_ofImages (t : Timeline T) (images : List Image) :
    (ofImages t images).map Source.index = List.range images.length := by
  rw [ofImages, List.map_map, List.range_eq_range', ← List.zipIdx_map_snd 0 images]
  rfl

theorem map_normalizeNode_ofImages (t : Timeline T) (images : List Image) (canvas : Canvas) :
    (ofImages t images).map (·.normalizeNode canvas) = normalNodes canvas images.length := by
  rw [normalNodes, ← map_index_ofImages t images, List.map_map]
  rfl

theorem map_normalizedLink_ofImages (t : Timeline T) (images : List Image) :
    ((ofImages t images).map fun s => normalizedLink s.index) =
      (List.range images.length).map normalizedLink := by
  rw [← map_index_ofImages t images, List.map_map]
  rfl

end Source

namespace Request

variable (r : Request T) (c : Config.Checked T)

/-- The job of a request that passed its checks, under the timeline made of its two times. -/
def job (t : Timeline T) : Job T where
  inputs := r.inputs (Source.ofImages t r.images)
  graph := slideshowGraph (Strategy.ofKind r.settings.transition c.config.fadeOffsets)
    r.settings.aspect.canvas t c.config.encoder.pixels r.images.length
    (r.images.length + r.audio.toList.length)
  videoLink := outputLink
  audio := r.audio.map fun _ => r.images.length
  encoder := c.config.encoder
  output := r.output
  canvas := r.settings.aspect.canvas
  duration := (Strategy.ofKind r.settings.transition c.config.fadeOffsets).duration t
    r.images.length

omit [Seconds T] in
theorem images_ne_nil_of_checkPaths {r : Request T} (h : r.checkPaths = .ok ()) :
    r.images ≠ [] := by
  intro hImages
  simp [checkPaths, hImages] at h

/-- Assembly checks the paths and makes the timeline; the rest cannot fail. -/
theorem result_assemble :
    (r.assemble c).result =
      (do
        r.checkPaths
        let t ← (Timeline.make c.config.photo r.settings.duration).mapError Error.ofTimeline
        return r.job c t : Except (Error T) (Job T)) := by
  simp only [assemble, compile, Traced.result_bind, Traced.result_emit, Traced.result_ofExcept,
    Traced.result_emitAll, Traced.result_pure]
  cases hPaths : r.checkPaths with
  | error e => rfl
  | ok _ =>
      cases hTimeline : Timeline.make c.config.photo r.settings.duration with
      | error fault => rfl
      | ok t =>
          have hImages : 0 < r.images.length :=
            List.length_pos_iff.mpr (images_ne_nil_of_checkPaths hPaths)
          obtain ⟨hNormal, hGraph, hResult, hSink⟩ :=
            slideshow_builds r.settings.aspect.canvas t c.config.encoder.pixels
              r.settings.transition c.config.fadeOffsets hImages
              (Nat.le_add_right r.images.length r.audio.toList.length)
          unfold slideshowChain at hGraph hResult
          simp only [Except.mapError, Source.length_ofImages, Source.map_normalizeNode_ofImages,
            Source.map_normalizedLink_ofImages, ok_bind, hNormal, hGraph, hResult, hSink]
          rfl

theorem isSlideshow_job (t : Timeline T) (hImages : r.images ≠ []) :
    (r.job c t).graph.IsSlideshow (Strategy.ofKind r.settings.transition c.config.fadeOffsets)
      r.settings.aspect.canvas t c.config.encoder.pixels r.images.length where
  sound := sound_slideshowGraph _ t _ _ _ (List.length_pos_iff.mpr hImages) (Nat.le_add_right _ _)
  nodes := toList_nodes_slideshowGraph _ _ _ _ _ _
  pos := List.length_pos_iff.mpr hImages

theorem getElem?_inputs_job (t : Timeline T) {i : Nat} {image : Image}
    (h : r.images[i]? = some image) :
    (r.job c t).inputs[i]? = some (.still image.path t.window) := by
  obtain ⟨hi, rfl⟩ := List.getElem?_eq_some_iff.mp h
  simp [Request.job, inputs, Source.ofImages, List.getElem?_append_left, hi]

end Request

end Diaporama
