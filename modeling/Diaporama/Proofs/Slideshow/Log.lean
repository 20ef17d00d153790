import Diaporama.Proofs.Slideshow.Offsets

/-!
# The log of an assembly

An assembly that goes through reports its stages in order: the canvas, the pictures that will be
enlarged, what the chain has to say, and at last the finished graph. That last event counts the
nodes of the job. Its offsets are those of blends that accumulate, also for a job whose blends do
not.
-/

namespace Diaporama

variable {T : Type}

namespace Traced

variable {α β : Type}

theorem log_bind (x : Traced T α) (f : α → Traced T β) :
    (x >>= f).log = x.log ++ (match x.result with
      | .ok a => (f a).log
      | .error _ => []) := by
  cases h : x.result with
  | ok a => rw [bind_of_ok h]
  | error e => rw [bind_of_error h, List.append_nil]

@[simp] theorem log_pure (a : α) : (pure a : Traced T α).log = [] := rfl

@[simp] theorem log_emit (e : Event T) : (emit e).log = [e] := rfl

@[simp] theorem log_emitAll (es : List (Event T)) : (emitAll es).log = es := rfl

@[simp] theorem log_ofExcept (r : Except (Error T) α) : (ofExcept r).log = [] := rfl

end Traced

variable [Seconds T]

namespace Strategy

def notes (n : Nat) : Strategy → List (Event T)
  | blend _ _ => []
  | fade offsets => if 2 ≤ n then fadeNotes offsets else []

omit [Seconds T] in
theorem eq_constantOffsets_of_mem_notes {s : Strategy} {n : Nat} {e : Event T}
    (h : e ∈ s.notes n) : e = .constantOffsets := by
  unfold notes at h
  split at h
  · cases h
  · next offsets =>
    split at h
    · cases offsets with
      | accumulate => cases h
      | constant => exact List.mem_singleton.mp h
    · cases h

theorem filterMap_event?_of_plan? {s : Strategy} {c : Chain T} {steps : List (Step T)}
    (h : s.plan? c = some steps) : steps.filterMap Step.event? = s.notes c.sources.length := by
  have hNode : (Step.event? ∘ Step.node : Node T → Option (Event T)) = fun _ => none := rfl
  have hEvent : (Step.event? ∘ Step.event : Event T → Option (Event T)) = some := rfl
  unfold plan? at h
  split at h
  · cases h
  · rename_i only hSources
    obtain rfl := Option.some_inj.mp h
    cases s <;> simp [notes, hSources, Step.event?]
  · rename_i first rest hMany hSources
    have hLength : 2 ≤ c.sources.length := by
      cases rest with
      | nil => exact absurd rfl hMany
      | cons second rest => simp [hSources]
    cases s with
    | blend style stem =>
        obtain rfl := Option.some_inj.mp h
        simp [blendSteps, notes, Step.event?, List.filterMap_map, hNode]
    | fade offsets =>
        obtain rfl := Option.some_inj.mp h
        have hFaded : c.fadedLinks ≠ [] := by simp [Chain.fadedLinks, hSources]
        obtain ⟨first, rest, hCons⟩ := List.exists_cons_of_ne_nil hFaded
        simp [fadeSteps, hCons, notes, hLength, Step.event?, List.filterMap_map, hNode, hEvent]

theorem log_build {s : Strategy} {c : Chain T} {g : Graph T}
    (h : (s.build c g).result = .ok ()) : (s.build c g).log = s.notes c.sources.length := by
  cases hPlan : s.plan? c with
  | none => simp [build, hPlan] at h
  | some steps =>
      simp only [build, hPlan, mapError_eq_ok_iff, Graph.result_follow_eq_ok_iff] at h
      obtain ⟨g', hPush⟩ := h
      simp only [build, hPlan, Graph.follow_of_pushAll hPush]
      exact filterMap_event?_of_plan? hPlan

end Strategy

theorem Graph.IsSlideshow.offsets {g : Graph T} {s : Strategy} {canvas : Canvas} {t : Timeline T}
    {pixels : String} {n : Nat} (h : g.IsSlideshow s canvas t pixels n) :
    Node.offsets g.nodes.toList = (List.range (n - 1)).map (s.start t) := by
  have hNormal : Node.offsets (normalNodes canvas n : List (Node T)) = [] := by
    refine Node.offsets_of_forall_ne fun m hm => ?_
    obtain ⟨i, -, rfl⟩ := List.mem_map.mp hm
    simp [normalNode]
  rw [h.nodes, slideshowNodes, Node.offsets_append, hNormal, List.nil_append,
    s.offsets_chainNodes _ (slideshowChain_sources_ne_nil t pixels h.pos)]
  simp [slideshowChain]

namespace Request

variable {r : Request T} {c : Config.Checked T} {t : Timeline T}

theorem log_assemble (hPaths : r.checkPaths = .ok ())
    (hTimes : Timeline.make c.config.photo r.settings.duration = .ok t) :
    (r.assemble c).log =
      [.assembling r.images.length r.settings.transition,
        .resolved r.settings.aspect.canvas t.window] ++
      r.upscaleEvents r.settings.aspect.canvas ++
      (Strategy.ofKind r.settings.transition c.config.fadeOffsets).notes r.images.length ++
      [.assembled (r.job c t).graph.nodes.size (t.offsets r.images.length)] := by
  have hImages : 0 < r.images.length := List.length_pos_iff.mpr (images_ne_nil_of_checkPaths hPaths)
  obtain ⟨hNormal, hGraph, hResult, hSink⟩ :=
    slideshow_builds r.settings.aspect.canvas t c.config.encoder.pixels
      r.settings.transition c.config.fadeOffsets hImages
      (Nat.le_add_right r.images.length r.audio.toList.length)
  have hLog := Strategy.log_build hResult
  have hLength : (slideshowChain t c.config.encoder.pixels r.images.length).sources.length =
      r.images.length := by simp [slideshowChain]
  rw [hLength] at hLog
  unfold slideshowChain at hGraph hResult hLog
  simp only [assemble, compile, Traced.log_bind, Traced.log_emit, Traced.log_emitAll,
    Traced.log_ofExcept, Traced.log_pure, Traced.result_emit, Traced.result_emitAll,
    Traced.result_ofExcept, hPaths, hTimes, Except.mapError, Source.length_ofImages,
    Source.map_normalizeNode_ofImages, Source.map_normalizedLink_ofImages, hNormal, hGraph,
    hResult, hSink, hLog]
  simp [job]

end Request

/-! ## The offsets on the log -/

namespace Event

def isSummary (e : Event T) : Bool :=
  e.level == .debug && e.text == "filter graph assembled"

omit [Seconds T] in
theorem isSummary_iff {e : Event T} :
    e.isSummary = true ↔ ∃ nodes offsets, e = .assembled nodes offsets := by
  have hOther : ("resolved canvas and timeline" == "filter graph assembled") = false := by decide
  cases e <;> simp [isSummary, level, text, hOther]

end Event

omit [Seconds T] in
theorem Strategy.isSummary_of_mem_notes {s : Strategy} {n : Nat} {e : Event T} (h : e ∈ s.notes n) :
    e.isSummary = false := by
  rw [eq_constantOffsets_of_mem_notes h]
  rfl

theorem Request.filter_isSummary_log {r : Request T} {c : Config.Checked T} {t : Timeline T}
    (hPaths : r.checkPaths = .ok ())
    (hTimes : Timeline.make c.config.photo r.settings.duration = .ok t) :
    (r.assemble c).log.filter Event.isSummary =
      [.assembled (r.job c t).graph.nodes.size (t.offsets r.images.length)] := by
  have hUpscaled : (r.upscaleEvents r.settings.aspect.canvas).filter Event.isSummary = [] := by
    refine List.filter_eq_nil_iff.mpr fun e he => ?_
    obtain ⟨⟨image, i⟩, -, hEvent⟩ := List.mem_filterMap.mp he
    obtain ⟨size, -, rfl⟩ := Option.map_eq_some_iff.mp hEvent
    exact Bool.false_ne_true
  have hNotes {s : Strategy} {n : Nat} : (s.notes n : List (Event T)).filter Event.isSummary = [] :=
    List.filter_eq_nil_iff.mpr fun e he => by simp [Strategy.isSummary_of_mem_notes he]
  have hSummary (e : Event T) (h : e.isSummary = true) : [e].filter Event.isSummary = [e] := by
    simp [h]
  rw [log_assemble hPaths hTimes, List.filter_append, List.filter_append, List.filter_append,
    hUpscaled, hNotes, hSummary _ (Event.isSummary_iff.mpr ⟨_, _, rfl⟩)]
  rfl

namespace Timeline

open Double

theorem offset_zero (t : Timeline Float) : t.offset 0 = t.photo := by
  obtain ⟨p, d, hTimes⟩ := t.exists_counted
  have hFirst := hTimes.counts_offset_of_lt (i := 0) (by omega)
  rw [Nat.zero_add, Nat.mul_one, hTimes.photo.rounded] at hFirst
  exact hFirst.eq hTimes.photo

theorem photo_lt_offset_one (t : Timeline Float) : t.photo < t.offset 1 := by
  obtain ⟨p, d, hTimes⟩ := t.exists_counted
  have hSecond := hTimes.counts_offset_of_lt (i := 1) (by omega)
  have hLess : nearest (p * 1) < nearest (p * (1 + 1)) :=
    nearest_mul_lt_nearest_mul hTimes.photo_pos (by omega) (by omega)
  rw [Nat.mul_one, hTimes.photo.rounded] at hLess
  have hBelow := hTimes.photo.isFinite_iff.mp ((Seconds.isPositive_iff _).mp t.photo_pos).1
  exact (hTimes.photo.lt_iff hSecond).mpr (by omega)

theorem photo_ne_offset_one (t : Timeline Float) : t.photo ≠ t.offset 1 := by
  intro hEq
  obtain ⟨p, d, hTimes⟩ := t.exists_counted
  have hLess := t.photo_lt_offset_one
  rw [← hEq] at hLess
  exact Nat.lt_irrefl _ ((hTimes.photo.lt_iff hTimes.photo).mp hLess)

/-- Constant offsets and accumulating ones part at the second blend. -/
theorem offsets_eq_starts_constant_iff (t : Timeline Float) (n : Nat) :
    t.offsets n = (List.range (n - 1)).map ((Strategy.fade .constant).start t) ↔ n ≤ 2 := by
  rw [offsets, List.map_inj_left]
  constructor
  · intro h
    by_contra hMany
    exact t.photo_ne_offset_one (h 1 (List.mem_range.mpr (by omega))).symm
  · intro hFew i hi
    have hRange := List.mem_range.mp hi
    obtain rfl : i = 0 := by omega
    exact t.offset_zero

end Timeline

namespace Request

/-- The log of an assembly has one event about the finished graph. It counts the nodes of the job.
The offsets that it lists are those of the job's blends, in order, except where three pictures or
more fade with constant offsets. -/
theorem assemble_log_describes {r : Request Float} {c : Config.Checked Float} {j : Job Float}
    (h : (r.assemble c).result = .ok j) :
    let offsets := (List.range (r.images.length - 1)).map fun i =>
      c.config.photo * (i.toUInt64.toFloat + 1.0)
    (r.assemble c).log.filter Event.isSummary = [.assembled j.graph.nodes.size offsets] ∧
    (offsets = Node.offsets j.graph.nodes.toList ↔
      ¬ (r.settings.transition = .fade ∧ c.config.fadeOffsets = .constant ∧
        3 ≤ r.images.length)) := by
  intro offsets
  obtain ⟨hChecks, t, hTimes, rfl⟩ := result_assemble_eq_ok_iff.mp h
  have hOffsets : offsets = t.offsets r.images.length := by
    simp only [offsets, ← hTimes.1]
    rfl
  have hGraph := (r.isSlideshow_job c t hChecks.1).offsets
  refine ⟨?_, ?_⟩
  · rw [hOffsets]
    exact filter_isSummary_log (checkPaths_eq_ok_iff.mpr hChecks)
      (Timeline.make_eq_ok_iff.mpr hTimes)
  · rw [hGraph, hOffsets]
    by_cases hConstant : r.settings.transition = .fade ∧ c.config.fadeOffsets = .constant
    · obtain ⟨hFade, hMode⟩ := hConstant
      rw [hFade, hMode, Strategy.ofKind, t.offsets_eq_starts_constant_iff]
      simp only [true_and]
      omega
    · have hAccumulates :
          (Strategy.ofKind r.settings.transition c.config.fadeOffsets).Accumulates := by
        rw [Strategy.accumulates_ofKind_iff]
        cases hMode : c.config.fadeOffsets with
        | accumulate => exact .inr rfl
        | constant => exact .inl fun hFade => hConstant ⟨hFade, hMode⟩
      rw [hAccumulates.start_eq]
      exact iff_of_true rfl fun hAll => hConstant ⟨hAll.1, hAll.2.1⟩

/-- Three pictures that dissolve: the log has the offsets of the graph. -/
theorem assemble_log_describes_dissolve :
    let c := Config.Checked.usual
    let t : Timeline Float := ⟨2.0, 0.8, by decide, by decide⟩
    let image := Image.ofPath (.ofString "a.png")
    let r : Request Float :=
      ⟨[image, image, image], none, ⟨.dissolve, 0.8, .usual⟩, .ofString "out.mp4"⟩
    (r.assemble c).result = .ok (r.job c t) ∧
      (r.assemble c).log.filter Event.isSummary = [.assembled 6 [2.0, 4.0]] ∧
      Node.offsets (r.job c t).graph.nodes.toList = [2.0, 4.0] := by
  intro c t image r
  have hJob : (r.assemble c).result = .ok (r.job c t) :=
    result_assemble_eq_ok_iff.mpr
      ⟨⟨by simp [r], by decide, ⟨by simp [r, image, Image.ofPath], by simp [r], by simp [r]⟩⟩, t,
        ⟨rfl, rfl⟩, rfl⟩
  obtain ⟨hLog, hOffsets⟩ := assemble_log_describes hJob
  have hNodes : (r.job c t).graph.nodes.size = 6 := by decide +kernel
  have hList : ((List.range (r.images.length - 1)).map fun i =>
      c.config.photo * (i.toUInt64.toFloat + 1.0)) = [2.0, 4.0] := by decide +kernel
  rw [hNodes, hList] at hLog
  rw [hList] at hOffsets
  exact ⟨hJob, hLog, (hOffsets.mpr (by simp [r])).symm⟩

/-- Three pictures that fade with constant offsets: the log has an offset that the graph lacks. -/
theorem assemble_log_constant :
    let c : Config.Checked Float := ⟨{ Config.usual with fadeOffsets := .constant }, by rfl⟩
    let t : Timeline Float := ⟨2.0, 0.8, by decide, by decide⟩
    let image (name : String) := Image.ofPath (.ofString name)
    let r : Request Float := ⟨[image "a.png", image "b.png", image "c.png"], none,
      ⟨.fade, 0.8, .usual⟩, .ofString "out.mp4"⟩
    (r.assemble c).result = .ok (r.job c t) ∧
      (r.assemble c).log.filter Event.isSummary = [.assembled 9 [2.0, 4.0]] ∧
      Node.offsets (r.job c t).graph.nodes.toList = [2.0, 2.0] ∧
      ¬ ∀ nodes offsets, .assembled nodes offsets ∈ (r.assemble c).log →
        offsets = Node.offsets (r.job c t).graph.nodes.toList := by
  intro c t image r
  have hTimes : Timeline.make c.config.photo r.settings.duration = .ok t :=
    Timeline.make_eq_ok_iff.mpr ⟨rfl, rfl⟩
  have hPaths : r.checkPaths = .ok () :=
    checkPaths_eq_ok_iff.mpr
      ⟨by simp [r], by decide, ⟨by simp [r, image, Image.ofPath], by simp [r], by simp [r]⟩⟩
  have hJob : (r.assemble c).result = .ok (r.job c t) :=
    result_assemble_eq_ok_iff.mpr ⟨checkPaths_eq_ok_iff.mp hPaths, t, ⟨rfl, rfl⟩, rfl⟩
  have hLog := filter_isSummary_log hPaths hTimes
  have hNodes : (r.job c t).graph.nodes.size = 9 := by decide +kernel
  have hLogged : t.offsets r.images.length = [2.0, 4.0] := by decide +kernel
  have hGraph : Node.offsets (r.job c t).graph.nodes.toList = [2.0, 2.0] :=
    (r.isSlideshow_job c t (by simp [r])).offsets
  rw [hNodes, hLogged] at hLog
  have hMem : .assembled 9 [2.0, 4.0] ∈ (r.assemble c).log :=
    List.mem_of_mem_filter (hLog ▸ List.mem_singleton_self _)
  refine ⟨hJob, hLog, hGraph, fun hAll => ?_⟩
  have hEq := hAll _ _ hMem
  rw [hGraph] at hEq
  revert hEq
  decide +kernel

end Request

end Diaporama
