import Diaporama.Proofs.Slideshow.Decision
import Diaporama.Proofs.Slideshow.Exact

/-!
# How long the streams of a slideshow last

Computed node by node from the inputs, the stream on the output link lasts as long as the job says.
No blend and no fade runs past the end of the stream it is applied to.
-/

namespace Diaporama

/-! ## Lengths of streams -/

namespace Job

/-- How long the stream on a pad lasts. Most filters keep the length; a blend that is over before
its first stream is lasts until its second stream, started with the blend, is over. -/
inductive Lasts (j : Job ℚ) : Pad → ℚ → Prop
  | input {i : Nat} {path : FilePath} {hold : ℚ} (hInput : j.inputs[i]? = some (.still path hold)) :
      Lasts j (.source i .video) hold
  | filtered {link : String} {n : Node ℚ} {pad : Pad} {a : ℚ}
      (hNode : j.graph.producer? link = some n) (hInputs : n.inputs = [pad])
      (hFilters : ∀ f ∈ n.filters, f.arity = 1) (hSource : Lasts j pad a) : Lasts j (.link link) a
  | blended {link : String} {n : Node ℚ} {first second : Pad} {style : BlendStyle}
      {duration offset a b : ℚ} (hNode : j.graph.producer? link = some n)
      (hInputs : n.inputs = [first, second]) (hFilters : n.filters = [.blend style duration offset])
      (hFirst : Lasts j first a) (hSecond : Lasts j second b) (hPlaced : offset + duration ≤ a) :
      Lasts j (.link link) (offset + b)

theorem Lasts.unique {j : Job ℚ} {pad : Pad} {a b : ℚ} (h : j.Lasts pad a) (h' : j.Lasts pad b) :
    a = b := by
  induction h generalizing b with
  | input hInput =>
      cases h' with
      | input hInput' =>
          cases hInput.symm.trans hInput'
          rfl
  | filtered hNode hInputs _ _ ih =>
      cases h' with
      | filtered hNode' hInputs' _ hSource' =>
          cases hNode.symm.trans hNode'
          cases hInputs.symm.trans hInputs'
          exact ih hSource'
      | blended hNode' hInputs' =>
          cases hNode.symm.trans hNode'
          cases hInputs.symm.trans hInputs'
  | blended hNode hInputs hFilters _ _ _ _ ihSecond =>
      cases h' with
      | filtered hNode' hInputs' =>
          cases hNode.symm.trans hNode'
          cases hInputs.symm.trans hInputs'
      | blended hNode' hInputs' hFilters' _ hSecond' =>
          cases hNode.symm.trans hNode'
          cases hInputs.symm.trans hInputs'
          cases hFilters.symm.trans hFilters'
          rw [ihSecond hSecond']

/-- A node whose blends run inside the first stream and whose fades run inside the only one. -/
structure WellTimed (j : Job ℚ) (n : Node ℚ) : Prop where
  blends : ∀ style duration offset, .blend style duration offset ∈ n.filters →
    ∃ first second a b, n.inputs = [first, second] ∧ j.Lasts first a ∧ j.Lasts second b ∧
      offset + duration ≤ a
  fades : ∀ direction start duration, .fade direction start duration ∈ n.filters →
    ∃ pad a, n.inputs = [pad] ∧ j.Lasts pad a ∧ 0 ≤ start ∧ start + duration ≤ a

/-- A node whose blends start `d` before the first stream ends, and whose fade to black ends with
the job. -/
structure Seamless (j : Job ℚ) (d : ℚ) (n : Node ℚ) : Prop where
  blends : ∀ style duration offset, .blend style duration offset ∈ n.filters →
    ∃ first second a, n.inputs = [first, second] ∧ j.Lasts first a ∧ offset + d = a
  exits : ∀ start duration, .fade .toBlack start duration ∈ n.filters →
    start + duration = j.duration

/-- A node that blends as the style says, and the lengths of the streams it blends. -/
def BlendsInTime (j : Job ℚ) (s : Strategy) (t : Timeline ℚ) (n : Node ℚ) : Prop :=
  ∃ k first second, n.inputs = [first, second] ∧
    n.filters = [.blend s.style t.blend (s.start t k)] ∧
    j.Lasts first (s.duration t (k + 1)) ∧ j.Lasts second t.window

end Job

/-! ## Lengths in a slideshow -/

/-- A job over the graph of a slideshow, with its pictures held for one window each. -/
structure Job.IsSlideshow (j : Job ℚ) (s : Strategy) (canvas : Canvas) (t : Timeline ℚ)
    (pixels : String) (n : Nat) : Prop extends j.graph.IsSlideshow s canvas t pixels n where
  inputs : ∀ i < n, ∃ path, j.inputs[i]? = some (.still path t.window)

namespace Job.IsSlideshow

variable {j : Job ℚ} {s : Strategy} {canvas : Canvas} {t : Timeline ℚ} {pixels : String} {n : Nat}

theorem lasts_normalizedLink (h : j.IsSlideshow s canvas t pixels n) {i : Nat} (hi : i < n) :
    j.Lasts (.link (normalizedLink i)) t.window := by
  obtain ⟨path, hInput⟩ := h.inputs i hi
  exact .filtered (h.producer?_eq_some (h.normalNode_mem hi) rfl) rfl
    (by simp [normalNode, Filter.arity]) (.input hInput)

theorem lasts_entry (h : j.IsSlideshow s canvas t pixels n) {i : Nat} (hi : i < n) :
    j.Lasts (.link (s.entry n i)) t.window := by
  have hNormal := h.lasts_normalizedLink hi
  unfold Strategy.entry
  cases hFades : s.fadesIn n with
  | false => exact hNormal
  | true =>
      exact .filtered (h.producer?_eq_some (h.entranceNode_mem hFades hi) rfl) rfl
        (by simp [Chain.entranceNode, Filter.arity]) hNormal

/-- Blend after blend, the stream so far lasts as long as its pictures take. -/
theorem lasts_blendedLink (h : j.IsSlideshow s canvas t pixels n) {i : Nat} {first : String}
    {rest : List String}
    (hNodes : ∀ m ∈ Chain.blendNodes s.style t.blend (s.start t) s.stem i first rest,
      m ∈ j.graph.nodes)
    (hFirst : j.Lasts (.link first) (s.duration t (i + 1)))
    (hRest : ∀ link ∈ rest, j.Lasts (.link link) t.window) :
    j.Lasts (.link (Chain.blendedLink s.stem i first rest)) (s.duration t (i + 1 + rest.length)) ∧
      ∀ m ∈ Chain.blendNodes s.style t.blend (s.start t) s.stem i first rest,
        j.BlendsInTime s t m := by
  -- The length in `hFirst` is carried along: one blend more is one picture more.
  induction rest generalizing i first with
  | nil => exact ⟨hFirst, fun m hm => absurd hm List.not_mem_nil⟩
  | cons second rest ih =>
      obtain ⟨hNode, hNodes⟩ := List.forall_mem_cons.mp hNodes
      obtain ⟨hSecond, hRest⟩ := List.forall_mem_cons.mp hRest
      have hBlended : j.Lasts (.link (Chain.numbered s.stem i)) (s.duration t (i + 1 + 1)) := by
        rw [← s.start_add_window]
        exact .blended (h.producer?_eq_some hNode rfl) rfl rfl hFirst hSecond
          (s.start_add_blend_le t i)
      obtain ⟨hLast, hBlends⟩ := ih hNodes hBlended hRest
      refine ⟨?_, List.forall_mem_cons.mpr ⟨⟨i, _, _, rfl, rfl, hFirst, hSecond⟩, hBlends⟩⟩
      rw [List.length_cons, ← Nat.add_assoc, Nat.add_right_comm]
      exact hLast

theorem lasts_lastLink (h : j.IsSlideshow s canvas t pixels n) :
    j.Lasts (.link (s.lastLink n)) (s.duration t n) ∧
      ∀ m ∈ Chain.blendNodes s.style t.blend (s.start t) s.stem 0 (s.entry n 0) (s.laterEntries n),
        j.BlendsInTime s t m := by
  have hFirst : j.Lasts (.link (s.entry n 0)) (s.duration t (0 + 1)) := by
    rw [s.duration_one]
    exact h.lasts_entry h.pos
  have hRest : ∀ link ∈ s.laterEntries n, j.Lasts (.link link) t.window := fun link hLink => by
    obtain ⟨k, hGet⟩ := List.mem_iff_getElem?.mp hLink
    obtain ⟨hk, rfl⟩ := s.getElem?_laterEntries hGet
    exact h.lasts_entry hk
  have hBlends := h.lasts_blendedLink h.mem_of_mem_blendNodes hFirst hRest
  rwa [s.length_laterEntries, Nat.zero_add, Nat.add_sub_cancel' h.pos] at hBlends

theorem lasts_outputLink (h : j.IsSlideshow s canvas t pixels n) :
    j.Lasts (.link outputLink) (s.duration t n) := by
  refine .filtered (h.producer?_eq_some h.outputNode_mem rfl) rfl (fun f hf => ?_)
    h.lasts_lastLink.1
  rcases List.mem_append.mp hf with hf | hf
  · exact s.arity_of_mem_exits t n hf
  · rw [List.mem_singleton.mp hf]
    rfl

/-- The blends of a slideshow, each with the lengths of what it blends. -/
theorem blend_of_mem_filters (h : j.IsSlideshow s canvas t pixels n) {m : Node ℚ}
    (hm : m ∈ j.graph.nodes) {style : BlendStyle} {duration offset : ℚ}
    (hFilter : .blend style duration offset ∈ m.filters) :
    ∃ k first second, m.inputs = [first, second] ∧ duration = t.blend ∧ offset = s.start t k ∧
      j.Lasts first (s.duration t (k + 1)) ∧ j.Lasts second t.window := by
  rcases h.mem_nodes_iff.mp hm with
    ⟨i, hi, rfl⟩ | ⟨-, i, hi, rfl⟩ | hBlend | rfl
  · simp [normalNode] at hFilter
  · simp [Chain.entranceNode] at hFilter
  · obtain ⟨k, a, b, hPads, hFilters, hFirst, hSecond⟩ := h.lasts_lastLink.2 m hBlend
    obtain ⟨-, hDuration, hOffset⟩ : style = s.style ∧ duration = t.blend ∧ offset = s.start t k := by
      simpa [hFilters] using hFilter
    exact ⟨k, a, b, hPads, hDuration, hOffset, hFirst, hSecond⟩
  · rcases List.mem_append.mp hFilter with hExit | hFormat
    · cases s.arity_of_mem_exits t n hExit
    · simp at hFormat

/-- The fades of a slideshow: each picture's at its beginning, and the one of the whole stream. -/
theorem fade_of_mem_filters (h : j.IsSlideshow s canvas t pixels n) {m : Node ℚ}
    (hm : m ∈ j.graph.nodes) {direction : FadeDirection} {start duration : ℚ}
    (hFilter : .fade direction start duration ∈ m.filters) :
    ∃ pad a, m.inputs = [pad] ∧ j.Lasts pad a ∧ 0 ≤ start ∧ start + duration ≤ a ∧
      (direction = .toBlack → s.Accumulates → start + duration = s.duration t n) := by
  rcases h.mem_nodes_iff.mp hm with
    ⟨i, hi, rfl⟩ | ⟨-, i, hi, rfl⟩ | hBlend | rfl
  · simp [normalNode] at hFilter
  · obtain ⟨rfl, rfl, rfl⟩ : direction = .fromBlack ∧ start = 0 ∧ duration = t.blend := by
      simpa [Chain.entranceNode] using hFilter
    refine ⟨_, _, rfl, h.lasts_normalizedLink hi, le_rfl, ?_,
      fun hDirection => by cases hDirection⟩
    rw [t.window_eq, zero_add]
    exact le_add_of_nonneg_left t.zero_lt_photo.le
  · obtain ⟨k, a, b, -, hFilters, -⟩ := h.lasts_lastLink.2 m hBlend
    simp [hFilters] at hFilter
  · rcases List.mem_append.mp hFilter with hExit | hFormat
    · obtain ⟨begin, hFade, hStart, hEnd, hExact⟩ := s.eq_toBlack_of_mem_exits t hExit
      obtain ⟨rfl, rfl, rfl⟩ := Filter.fade.inj hFade
      exact ⟨_, _, rfl, h.lasts_lastLink.1, hStart, hEnd, fun _ => hExact⟩
    · simp at hFormat

theorem wellTimed (h : j.IsSlideshow s canvas t pixels n) {m : Node ℚ} (hm : m ∈ j.graph.nodes) :
    j.WellTimed m where
  blends style duration offset hFilter := by
    obtain ⟨k, first, second, hPads, rfl, rfl, hFirst, hSecond⟩ := h.blend_of_mem_filters hm hFilter
    exact ⟨first, second, _, _, hPads, hFirst, hSecond, s.start_add_blend_le t k⟩
  fades direction start duration hFilter := by
    obtain ⟨pad, a, hPad, hLasts, hStart, hEnd, -⟩ := h.fade_of_mem_filters hm hFilter
    exact ⟨pad, a, hPad, hLasts, hStart, hEnd⟩

theorem seamless (h : j.IsSlideshow s canvas t pixels n) (hDuration : j.duration = s.duration t n)
    (hAccumulates : s.Accumulates) {m : Node ℚ} (hm : m ∈ j.graph.nodes) :
    j.Seamless t.blend m where
  blends style duration offset hFilter := by
    obtain ⟨k, first, second, hPads, -, rfl, hFirst, -⟩ := h.blend_of_mem_filters hm hFilter
    exact ⟨first, second, _, hPads, hFirst, hAccumulates.start_add_blend t k⟩
  exits start duration hFilter := by
    obtain ⟨-, -, -, -, -, -, hEnd⟩ := h.fade_of_mem_filters hm hFilter
    rw [hDuration, hEnd rfl hAccumulates]

end Job.IsSlideshow

namespace Request

theorem isSlideshow_job_rat (r : Request ℚ) (c : Config.Checked ℚ) (t : Timeline ℚ)
    (hImages : r.images ≠ []) :
    (r.job c t).IsSlideshow (Strategy.ofKind r.settings.transition c.config.fadeOffsets)
      r.settings.aspect.canvas t c.config.encoder.pixels r.images.length where
  toIsSlideshow := isSlideshow_job r c t hImages
  inputs _ hi := ⟨_, getElem?_inputs_job r c t (List.getElem?_eq_getElem hi)⟩

/-- In exact time, the video of a request with a positive blend lasts as long as its job says, and
no blend or fade runs past its stream. Where blends accumulate, each of them ends with its first
stream, and the final fade ends with the video. -/
theorem assemble_lengths (r : Request ℚ) (c : Config.Checked ℚ) (hImages : r.images ≠ [])
    (hOutput : r.output.isEmpty = false) (hPaths : r.Textual) (hDuration : 0 < r.settings.duration) :
    ∃ job, (r.assemble c).result = .ok job ∧
      (∀ a, job.Lasts (.link outputLink) a ↔ a = job.duration) ∧
      (∀ n ∈ job.graph.nodes, job.WellTimed n) ∧
      (r.settings.transition ≠ .fade ∨ c.config.fadeOffsets = .accumulate →
        ∀ n ∈ job.graph.nodes, job.Seamless r.settings.duration n) ∧
      (r.settings.transition = .fade → 2 ≤ r.images.length →
        ∃ n ∈ job.graph.nodes, n.outputs = [outputLink] ∧
          ∃ start, .fade .toBlack start r.settings.duration ∈ n.filters) := by
  let t : Timeline ℚ :=
    ⟨c.config.photo, r.settings.duration, c.photo_pos, decide_eq_true hDuration⟩
  have hShow := isSlideshow_job_rat r c t hImages
  have hLasts := hShow.lasts_outputLink
  refine ⟨r.job c t, result_assemble_eq_ok_iff.mpr ⟨⟨hImages, hOutput, hPaths⟩, t, ⟨rfl, rfl⟩, rfl⟩,
    fun a => ⟨fun hLasts' => hLasts'.unique hLasts, ?_⟩, fun n hn => hShow.wellTimed hn,
    fun hAccumulates n hn => ?_, fun hFade hMany => ?_⟩
  · rintro rfl
    exact hLasts
  · exact hShow.seamless rfl ((Strategy.accumulates_ofKind_iff _ _).mpr hAccumulates) hn
  · refine ⟨_, hShow.outputNode_mem, rfl,
      Strategy.exitStart t r.images.length c.config.fadeOffsets, List.mem_append_left _ ?_⟩
    rw [hFade]
    simp [Strategy.ofKind, Strategy.exits, hMany, t]

theorem assemble_lengths_fade :
    let r : Request ℚ := ⟨[.ofPath (.ofString "a.png"), .ofPath (.ofString "b.png")], none,
      ⟨.fade, 1, .usual⟩, .ofString "out.mp4"⟩
    let c : Config.Checked ℚ := ⟨⟨2, .usual, .accumulate⟩, by decide⟩
    ∃ job, (r.assemble c).result = .ok job ∧ job.Lasts (.link outputLink) 5 := by
  intro r c
  have hPaths : r.Textual := ⟨by simp [r, Image.ofPath], by simp [r], by simp [r]⟩
  obtain ⟨job, hJob, hLasts, -⟩ :=
    assemble_lengths r c (by simp [r]) (by decide) hPaths (by simp [r])
  refine ⟨job, hJob, (hLasts 5).mpr ?_⟩
  obtain ⟨-, t, ⟨hPhoto, hBlend⟩, rfl⟩ := result_assemble_eq_ok_iff.mp hJob
  have hDuration : (r.job c t).duration = t.photo * (((1 : Nat) : ℚ) + 1) + t.blend :=
    (Strategy.fade .accumulate).duration_succ t 1
  rw [hDuration, hPhoto, hBlend]
  norm_num [r, c]

end Request

end Diaporama
