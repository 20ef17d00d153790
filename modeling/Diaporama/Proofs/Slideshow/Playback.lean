import Diaporama.Proofs.Slideshow.Lengths

/-!
# When each picture is shown

A moment of the video is a moment of one or more pictures, each on its own clock. Where blends
accumulate, picture `k` comes in at `P * k` and stays until the blend to the next picture is over,
however long blends are: when they are longer than `P`, more than two pictures overlap.
-/

namespace Diaporama

/-! ## What a pad shows -/

namespace Job

/-- What a pad shows at a time: an encoder input, at a time on its own clock. A blend shows its first
stream until it is over and its second one from its start on, on a clock that starts with it. -/
inductive Shows (j : Job ℚ) : Pad → ℚ → Nat → ℚ → Prop
  | input {i : Nat} {path : FilePath} {hold x : ℚ} (hInput : j.inputs[i]? = some (.still path hold)) :
      Shows j (.source i .video) x i x
  | filtered {link : String} {n : Node ℚ} {pad : Pad} {x u : ℚ} {k : Nat}
      (hNode : j.graph.producer? link = some n) (hInputs : n.inputs = [pad])
      (hFilters : ∀ f ∈ n.filters, f.arity = 1) (hSource : Shows j pad x k u) :
      Shows j (.link link) x k u
  | first {link : String} {n : Node ℚ} {a b : Pad} {style : BlendStyle} {duration offset x u : ℚ}
      {k : Nat} (hNode : j.graph.producer? link = some n) (hInputs : n.inputs = [a, b])
      (hFilters : n.filters = [.blend style duration offset]) (hTime : x < offset + duration)
      (hFirst : Shows j a x k u) : Shows j (.link link) x k u
  | second {link : String} {n : Node ℚ} {a b : Pad} {style : BlendStyle} {duration offset x u : ℚ}
      {k : Nat} (hNode : j.graph.producer? link = some n) (hInputs : n.inputs = [a, b])
      (hFilters : n.filters = [.blend style duration offset]) (hTime : offset ≤ x)
      (hSecond : Shows j b (x - offset) k u) : Shows j (.link link) x k u

variable {j : Job ℚ} {link : String} {n : Node ℚ} {x u : ℚ} {k : Nat}

theorem shows_source_iff {i : Nat} {path : FilePath} {hold : ℚ}
    (hInput : j.inputs[i]? = some (.still path hold)) :
    j.Shows (.source i .video) x k u ↔ k = i ∧ u = x := by
  constructor
  · intro h
    cases h with
    | input => exact ⟨rfl, rfl⟩
  · rintro ⟨rfl, rfl⟩
    exact .input hInput

theorem shows_filtered_iff {pad : Pad} (hNode : j.graph.producer? link = some n)
    (hInputs : n.inputs = [pad]) (hFilters : ∀ f ∈ n.filters, f.arity = 1) :
    j.Shows (.link link) x k u ↔ j.Shows pad x k u := by
  constructor
  · intro h
    cases h with
    | filtered hNode' hInputs' _ hSource =>
        cases hNode.symm.trans hNode'
        cases hInputs.symm.trans hInputs'
        exact hSource
    | first hNode' hInputs' =>
        cases hNode.symm.trans hNode'
        cases hInputs.symm.trans hInputs'
    | second hNode' hInputs' =>
        cases hNode.symm.trans hNode'
        cases hInputs.symm.trans hInputs'
  · exact .filtered hNode hInputs hFilters

theorem shows_blended_iff {a b : Pad} {style : BlendStyle} {duration offset : ℚ}
    (hNode : j.graph.producer? link = some n) (hInputs : n.inputs = [a, b])
    (hFilters : n.filters = [.blend style duration offset]) :
    j.Shows (.link link) x k u ↔
      x < offset + duration ∧ j.Shows a x k u ∨ offset ≤ x ∧ j.Shows b (x - offset) k u := by
  constructor
  · intro h
    cases h with
    | filtered hNode' hInputs' =>
        cases hNode.symm.trans hNode'
        cases hInputs.symm.trans hInputs'
    | first hNode' hInputs' hFilters' hTime hFirst =>
        cases hNode.symm.trans hNode'
        cases hInputs.symm.trans hInputs'
        cases hFilters.symm.trans hFilters'
        exact .inl ⟨hTime, hFirst⟩
    | second hNode' hInputs' hFilters' hTime hSecond =>
        cases hNode.symm.trans hNode'
        cases hInputs.symm.trans hInputs'
        cases hFilters.symm.trans hFilters'
        exact .inr ⟨hTime, hSecond⟩
  · rintro (⟨hTime, hFirst⟩ | ⟨hTime, hSecond⟩)
    · exact .first hNode hInputs hFilters hTime hFirst
    · exact .second hNode hInputs hFilters hTime hSecond

end Job

/-! ## The time of a picture -/

namespace Timeline

/-- At time `x` the video of `n` pictures shows picture `k`: it has come in, and the blend to the
next picture, if there is one, is not over. -/
structure OnScreen (t : Timeline ℚ) (n : Nat) (x : ℚ) (k : Nat) : Prop where
  lt : k < n
  begun : k = 0 ∨ t.photo * k ≤ x
  lasting : k = n - 1 ∨ x < t.photo * (k + 1) + t.blend

variable {t : Timeline ℚ} {n k : Nat} {x : ℚ}

theorem onScreen_one_iff : t.OnScreen 1 x k ↔ k = 0 := by
  constructor
  · intro h
    exact Nat.lt_one_iff.mp h.lt
  · rintro rfl
    exact ⟨Nat.one_pos, .inl rfl, .inl rfl⟩

/-- One picture more takes the place of those before it when the blend to it is over. -/
theorem onScreen_succ_iff (hn : 0 < n) :
    t.OnScreen (n + 1) x k ↔
      x < t.photo * n + t.blend ∧ t.OnScreen n x k ∨ t.photo * n ≤ x ∧ k = n := by
  have hPhoto := t.zero_lt_photo
  constructor
  · rintro ⟨hk, hBegun, hLasting⟩
    rcases Nat.lt_succ_iff_lt_or_eq.mp hk with hk | rfl
    · have hEnd : x < t.photo * (k + 1) + t.blend := hLasting.resolve_left (by omega)
      -- An earlier picture is gone before the last blend is over.
      have hNext : (k + 1 : ℚ) ≤ n := by exact_mod_cast hk
      have hOffset := mul_le_mul_of_nonneg_left hNext hPhoto.le
      exact .inl ⟨by linarith, hk, hBegun, .inr hEnd⟩
    · exact .inr ⟨hBegun.resolve_left hn.ne', rfl⟩
  · rintro (⟨hTime, hk, hBegun, hLasting⟩ | ⟨hTime, rfl⟩)
    · refine ⟨Nat.lt_succ_of_lt hk, hBegun, .inr ?_⟩
      rcases hLasting with rfl | hEnd
      · rwa [Nat.cast_pred hn, sub_add_cancel]
      · exact hEnd
    · exact ⟨Nat.lt_succ_self k, .inr hTime, .inl rfl⟩

theorem OnScreen.clock (h : t.OnScreen n x k) (hStart : 0 ≤ x) (hEnd : x < t.photo * n + t.blend) :
    0 ≤ x - t.photo * k ∧ x - t.photo * k < t.window := by
  rw [t.window_eq]
  constructor
  · rcases h.begun with rfl | hBegun
    · simpa using hStart
    · exact sub_nonneg.mpr hBegun
  · have hLasting : x < t.photo * (k + 1) + t.blend := by
      rcases h.lasting with rfl | hLasting
      · rwa [Nat.cast_pred (Nat.zero_lt_of_lt h.lt), sub_add_cancel]
      · exact hLasting
    linarith

end Timeline

/-! ## The schedule of a slideshow -/

namespace Job.IsSlideshow

variable {j : Job ℚ} {s : Strategy} {canvas : Canvas} {t : Timeline ℚ} {pixels : String} {n : Nat}

theorem shows_entry_iff (h : j.IsSlideshow s canvas t pixels n) {i : Nat} (hi : i < n) {x u : ℚ}
    {k : Nat} : j.Shows (.link (s.entry n i)) x k u ↔ k = i ∧ u = x := by
  obtain ⟨path, hInput⟩ := h.inputs i hi
  have hNormal : j.Shows (.link (normalizedLink i)) x k u ↔ k = i ∧ u = x := by
    rw [shows_filtered_iff (h.producer?_eq_some (h.normalNode_mem hi) rfl) rfl
      (by simp [normalNode, Filter.arity]), shows_source_iff hInput]
  unfold Strategy.entry
  cases hFades : s.fadesIn n with
  | false => exact hNormal
  | true =>
      exact (shows_filtered_iff (h.producer?_eq_some (h.entranceNode_mem hFades hi) rfl) rfl
        (by simp [Chain.entranceNode, Filter.arity])).trans hNormal

/-- Blend after blend, the stream so far shows its pictures at their times. -/
theorem shows_blendedLink_iff (h : j.IsSlideshow s canvas t pixels n) (hAccumulates : s.Accumulates)
    {i : Nat} {first : String} {rest : List String}
    (hNodes : ∀ m ∈ Chain.blendNodes s.style t.blend (s.start t) s.stem i first rest,
      m ∈ j.graph.nodes)
    (hFirst : ∀ x k u, j.Shows (.link first) x k u ↔ t.OnScreen (i + 1) x k ∧ u = x - t.photo * k)
    (hRest : ∀ e link, rest[e]? = some link →
      ∀ x k u, j.Shows (.link link) x k u ↔ k = i + 1 + e ∧ u = x) (x : ℚ) (k : Nat) (u : ℚ) :
    j.Shows (.link (Chain.blendedLink s.stem i first rest)) x k u ↔
      t.OnScreen (i + 1 + rest.length) x k ∧ u = x - t.photo * k := by
  -- `hFirst` is the invariant: a blend adds picture `i + 1`, whose clock starts with the blend.
  induction rest generalizing i first with
  | nil => exact hFirst x k u
  | cons second rest ih =>
      obtain ⟨hNode, hNodes⟩ := List.forall_mem_cons.mp hNodes
      have hBlended : ∀ x k u, j.Shows (.link (Chain.numbered s.stem i)) x k u ↔
          t.OnScreen (i + 1 + 1) x k ∧ u = x - t.photo * k := by
        intro x k u
        rw [shows_blended_iff (h.producer?_eq_some hNode rfl) rfl rfl, hFirst,
          hRest 0 second rfl, hAccumulates.start_eq_mul, t.onScreen_succ_iff (Nat.succ_pos i)]
        constructor
        · rintro (⟨hTime, hShown, rfl⟩ | ⟨hTime, rfl, rfl⟩)
          · exact ⟨.inl ⟨hTime, hShown⟩, rfl⟩
          · exact ⟨.inr ⟨hTime, rfl⟩, rfl⟩
        · rintro ⟨⟨hTime, hShown⟩ | ⟨hTime, rfl⟩, rfl⟩
          · exact .inl ⟨hTime, hShown, rfl⟩
          · exact .inr ⟨hTime, rfl, rfl⟩
      rw [List.length_cons, ← Nat.add_assoc, Nat.add_right_comm]
      refine ih hNodes hBlended fun e link hLink => ?_
      rw [Nat.add_assoc (i + 1) 1 e, Nat.add_comm 1 e]
      exact hRest (e + 1) link hLink

theorem shows_outputLink_iff (h : j.IsSlideshow s canvas t pixels n) (hAccumulates : s.Accumulates)
    (x : ℚ) (k : Nat) (u : ℚ) :
    j.Shows (.link outputLink) x k u ↔ t.OnScreen n x k ∧ u = x - t.photo * k := by
  have hFirst : ∀ x k u, j.Shows (.link (s.entry n 0)) x k u ↔
      t.OnScreen (0 + 1) x k ∧ u = x - t.photo * k := by
    intro x k u
    rw [h.shows_entry_iff h.pos, Nat.zero_add, t.onScreen_one_iff]
    refine and_congr_right fun hk => ?_
    rw [hk, Nat.cast_zero, mul_zero, sub_zero]
  have hLast := h.shows_blendedLink_iff hAccumulates h.mem_of_mem_blendNodes hFirst
    (fun e link hLink => by
      obtain ⟨he, rfl⟩ := s.getElem?_laterEntries hLink
      intro x k u
      rw [Nat.zero_add]
      exact h.shows_entry_iff he) x k u
  rw [s.length_laterEntries, Nat.zero_add, Nat.add_sub_cancel' h.pos] at hLast
  refine (shows_filtered_iff (h.producer?_eq_some h.outputNode_mem rfl) rfl fun f hf => ?_).trans hLast
  rcases List.mem_append.mp hf with hf | hf
  · exact s.arity_of_mem_exits t n hf
  · rw [List.mem_singleton.mp hf]
    rfl

end Job.IsSlideshow

namespace Request

/-- In exact time and with accumulating blends, the video of a request shows each picture from
`P * k` on until the blend to its successor is over, the first from the beginning and the last to
the end, and each while its input is held. -/
theorem assemble_schedule (r : Request ℚ) (c : Config.Checked ℚ) (hImages : r.images ≠ [])
    (hOutput : r.output.isEmpty = false) (hPaths : r.Textual) (hDuration : 0 < r.settings.duration)
    (hAccumulates : r.settings.transition ≠ .fade ∨ c.config.fadeOffsets = .accumulate) :
    let p := c.config.photo
    let d := r.settings.duration
    let n := r.images.length
    ∃ job, (r.assemble c).result = .ok job ∧
      ∀ x, 0 ≤ x → x < p * n + d → ∀ k u,
        (job.Shows (.link outputLink) x k u ↔
          (k < n ∧ (k = 0 ∨ p * k ≤ x) ∧ (k = n - 1 ∨ x < p * (k + 1) + d)) ∧ u = x - p * k) ∧
        (job.Shows (.link outputLink) x k u → 0 ≤ u ∧ u < p + d ∧
          ∃ image, r.images[k]? = some image ∧
            job.inputs[k]? = some (.still image.path (p + d))) := by
  intro p d n
  let t : Timeline ℚ := ⟨p, d, c.photo_pos, decide_eq_true hDuration⟩
  have hShow := isSlideshow_job_rat r c t hImages
  have hShows := hShow.shows_outputLink_iff ((Strategy.accumulates_ofKind_iff _ _).mpr hAccumulates)
  refine ⟨r.job c t, result_assemble_eq_ok_iff.mpr ⟨⟨hImages, hOutput, hPaths⟩, t, ⟨rfl, rfl⟩, rfl⟩,
    fun x hStart hEnd k u => ⟨(hShows x k u).trans (and_congr_left fun _ => ?_), fun hShown => ?_⟩⟩
  · exact ⟨fun h => ⟨h.lt, h.begun, h.lasting⟩, fun ⟨hk, hBegun, hLasting⟩ => ⟨hk, hBegun, hLasting⟩⟩
  · obtain ⟨hOn, rfl⟩ := (hShows x k u).mp hShown
    obtain ⟨hClock, hHold⟩ := hOn.clock hStart hEnd
    have hImage : r.images[k]? = some (r.images.get ⟨k, hOn.lt⟩) := List.getElem?_eq_getElem hOn.lt
    exact ⟨hClock, hHold, _, hImage, getElem?_inputs_job r c t hImage⟩

/-- With blends longer than `P`, three pictures are shown at once. -/
theorem assemble_schedule_overlap :
    let r : Request ℚ := ⟨[.ofPath (.ofString "a.png"), .ofPath (.ofString "b.png"),
      .ofPath (.ofString "c.png")], none, ⟨.slideLeft, 5 / 2, .usual⟩, .ofString "out.mp4"⟩
    let c : Config.Checked ℚ := ⟨⟨1, .usual, .constant⟩, by decide⟩
    ∃ job, (r.assemble c).result = .ok job ∧
      ∀ k, job.Shows (.link outputLink) 3 k (3 - k) ↔ k < 3 := by
  intro r c
  have hPaths : r.Textual := ⟨by simp [r, Image.ofPath], by simp [r], by simp [r]⟩
  obtain ⟨job, hJob, hSchedule⟩ := assemble_schedule r c (by simp [r]) (by decide) hPaths
    (by norm_num [r]) (.inl (by simp [r]))
  refine ⟨job, hJob, fun k => ?_⟩
  have hShown := (hSchedule 3 (by norm_num) (by norm_num [r, c]) k (3 - k)).1
  rw [hShown]
  constructor
  · rintro ⟨⟨hk, -, -⟩, -⟩
    exact hk
  · intro hk
    obtain rfl | rfl | rfl : k = 0 ∨ k = 1 ∨ k = 2 := by omega
    all_goals norm_num [r, c]

end Request

end Diaporama
