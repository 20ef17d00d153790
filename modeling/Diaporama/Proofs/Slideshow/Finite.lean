import Diaporama.Proofs.Double.Text
import Diaporama.Proofs.Slideshow.Arguments
import Diaporama.Proofs.Slideshow.Pieces

/-!
# Where times end in infinity

The two times of a request are checked to be finite, but what is computed from them is not checked
again. Computed in doubles, no time of a job lies beyond its duration, whatever is rounded on the
way. So all of them are finite as soon as the duration is; and where it is not, it is written `inf`.
-/

namespace Diaporama

open Double

/-! ## Timelines -/

namespace Timeline

structure Counted (t : Timeline Float) (p d : Nat) : Prop where
  photo : Counts t.photo p
  blend : Counts t.blend d
  photo_pos : 0 < p

theorem exists_counted (t : Timeline Float) : ∃ p d, t.Counted p d := by
  obtain ⟨p, hPhoto, hPos, -⟩ := exists_counts_of_isPositive t.photo_pos
  obtain ⟨d, hBlend, -, -⟩ := exists_counts_of_isPositive t.blend_pos
  exact ⟨p, d, hPhoto, hBlend, hPos⟩

def span (p d n : Nat) : Nat :=
  nearest (nearest (p * nearest n) + d)

theorem span_mono {p d m n : Nat} (h : m ≤ n) : span p d m ≤ span p d n := by
  have hDisplayed : nearest (p * nearest m) ≤ nearest (p * nearest n) :=
    nearest_mono (Nat.mul_le_mul_left p (nearest_mono h))
  exact nearest_mono (Nat.add_le_add_right hDisplayed d)

theorem span_lt_limit {p d n k : Nat} (hk : k + 65 < 53 + maxExcess) (hp : p ≤ 2 ^ k)
    (hd : d ≤ 2 ^ k) (hn : n ≤ 2 ^ 64) : span p d n < limit := by
  have hDisplayed : nearest (p * nearest n) ≤ 2 ^ (k + 64) := by
    refine nearest_le_of_le (nearest_two_pow _) ?_
    rw [Nat.pow_add]
    exact Nat.mul_le_mul hp (nearest_le_of_le (nearest_two_pow 64) hn)
  have hSum : nearest (p * nearest n) + d ≤ 2 ^ (k + 65) := by
    have hBlend : 2 ^ k ≤ 2 ^ (k + 64) := Nat.pow_le_pow_right (by omega) (by omega)
    rw [← Nat.add_assoc k 64 1, Nat.pow_succ]
    omega
  calc
    span p d n ≤ 2 ^ (k + 65) := nearest_le_of_le (nearest_two_pow _) hSum
    _ < limit := Nat.pow_lt_pow_right (by omega) hk

namespace Counted

variable {t : Timeline Float} {p d n : Nat}

theorem counts_displayed (h : t.Counted p d) (hn : 0 < n) (hCount : n < 2 ^ 64) :
    Counts (t.displayed n) (nearest (p * nearest n)) :=
  h.photo.mul h.photo_pos (whole_ofCount hn hCount)

theorem counts_total (h : t.Counted p d) (hn : 0 < n) (hCount : n < 2 ^ 64) :
    Counts (t.total n) (span p d n) := by
  rw [total, if_neg hn.ne']
  exact (h.counts_displayed hn hCount).add h.blend

theorem displayed_le (n : Nat) : nearest (p * nearest n) ≤ span p d n :=
  le_nearest_of_le (nearest_nearest _) (Nat.le_add_right _ d)

theorem photo_le (h : t.Counted p d) (hn : 0 < n) : p ≤ span p d n := by
  have hOne : p ≤ p * nearest n := Nat.le_mul_of_pos_right p (nearest_pos hn)
  exact Nat.le_trans (le_nearest_of_le h.photo.rounded hOne) (displayed_le n)

theorem blend_le (h : t.Counted p d) (n : Nat) : d ≤ span p d n :=
  le_nearest_of_le h.blend.rounded (Nat.le_add_left d _)

theorem counts_window (h : t.Counted p d) : Counts t.window (span p d 1) := by
  have hOne : nearest 1 = 1 := nearest_of_lt (by omega)
  rw [span, hOne, Nat.mul_one, h.photo.rounded]
  exact h.photo.add h.blend

theorem counts_offset (h : t.Counted p d) {i : Nat} (hi : i + 1 < 2 ^ 64) :
    Counts (t.offset i) (nearest (p * nearest (nearest i + 1))) :=
  h.photo.mul h.photo_pos (whole_ofCount_add_one hi)

theorem offset_le {i : Nat} (hi : i + 2 ≤ n) :
    nearest (p * nearest (nearest i + 1)) ≤ span p d n := by
  have hStart : nearest (nearest i + 1) ≤ nearest n :=
    Nat.le_trans (nearest_add_one_le i) (nearest_mono hi)
  exact Nat.le_trans (nearest_mono (Nat.mul_le_mul_left p hStart)) (displayed_le n)

end Counted

end Timeline

/-! ## The times of a job -/

/-- The count of `1e288` has few enough digits for what is computed from it. -/
theorem le_of_le_bound {x : Float} {n : Nat} (h : Counts x n) (hx : x ≤ 1e288) :
    n ≤ 2 ^ (53 + 1978) := by
  have hBits : (1e288 : Float).toBits = 0x7bba44df832b8d46 := by decide +kernel
  have hShort : 7394076163542342 < 2 ^ 53 := by omega
  have hFull : 2 ^ 52 ≤ 7394076163542342 ∨ 1978 = 0 := .inl (by omega)
  have hBound : Counts 1e288 (7394076163542342 * 2 ^ 1978) := by
    refine ⟨?_, nearest_mul_two_pow_of_lt hShort 1978⟩
    rw [ofSteps_mul_two_pow hShort hFull (by omega) (by decide)]
    change Float.Model.UnpackedFloat.unpack Float.Model.Format.binary64
      (1e288 : Float).toBits.toBitVec = _
    rw [hBits]
    rfl
  have hFinite := (mul_two_pow_lt_limit_iff hShort hFull).mpr (by decide)
  have hLe := (h.le_iff hBound).mp hx
  rw [Nat.min_eq_left hFinite.le] at hLe
  calc
    n ≤ 7394076163542342 * 2 ^ 1978 := (min_le_iff.mp hLe).resolve_right (Nat.not_le.mpr hFinite)
    _ ≤ 2 ^ 53 * 2 ^ 1978 := Nat.mul_le_mul_right _ hShort.le
    _ = 2 ^ (53 + 1978) := by rw [Nat.pow_add]

def AtMost (bound : Nat) (x : Float) : Prop :=
  ∃ n, Counts x n ∧ n ≤ bound

theorem atMost_zero (bound : Nat) : AtMost bound Seconds.zero :=
  ⟨0, ⟨Seconds.unpack_zero.trans ofSteps_zero.symm, nearest_zero⟩, Nat.zero_le bound⟩

namespace Strategy

/-- The number of pictures that a strategy's duration counts. -/
def pictures (n : Nat) : Strategy → Nat
  | fade .constant => min n 2
  | fade .accumulate | blend _ _ => n

variable {s : Strategy} {t : Timeline Float} {p d n : Nat}

theorem pictures_le (s : Strategy) (n : Nat) : s.pictures n ≤ n := by
  unfold pictures
  split <;> omega

theorem pictures_pos (s : Strategy) (hn : 0 < n) : 0 < s.pictures n := by
  unfold pictures
  split <;> omega

theorem duration_eq_total (s : Strategy) (t : Timeline Float) (n : Nat) :
    s.duration t n = t.total (s.pictures n) := by
  unfold duration pictures
  cases s with
  | blend => rfl
  | fade offsets => cases offsets <;> rfl

theorem atMost_start (h : t.Counted p d) (s : Strategy) {i : Nat} (hi : i + 2 ≤ n)
    (hCount : n < 2 ^ 64) : AtMost (Timeline.span p d (s.pictures n)) (s.start t i) := by
  have hOffset : AtMost (Timeline.span p d n) (t.offset i) :=
    ⟨_, h.counts_offset (by omega), Timeline.Counted.offset_le hi⟩
  have hPhoto : AtMost (Timeline.span p d (min n 2)) t.photo :=
    ⟨p, h.photo, h.photo_le (by omega)⟩
  cases s with
  | blend => exact hOffset
  | fade offsets =>
      cases offsets with
      | accumulate => exact hOffset
      | constant => exact hPhoto

theorem atMost_exits (h : t.Counted p d) (s : Strategy) (hn : 0 < n) (hCount : n < 2 ^ 64) :
    ∀ f ∈ s.exits t n, ∀ x ∈ f.times, AtMost (Timeline.span p d (s.pictures n)) x := by
  have hDisplayed : AtMost (Timeline.span p d n) (t.displayed n) :=
    ⟨_, h.counts_displayed hn hCount, Timeline.Counted.displayed_le n⟩
  have hPhoto : AtMost (Timeline.span p d (min n 2)) t.photo :=
    ⟨p, h.photo, h.photo_le (by omega)⟩
  have hBlend : AtMost (Timeline.span p d (s.pictures n)) t.blend := ⟨d, h.blend, h.blend_le _⟩
  intro f hf x hx
  obtain ⟨offsets, rfl, -, rfl⟩ := s.exists_of_mem_exits t n hf
  rcases List.mem_pair.mp hx with rfl | rfl
  · cases offsets with
    | accumulate => exact hDisplayed
    | constant => exact hPhoto
  · exact hBlend

end Strategy

namespace Graph.IsSlideshow

variable {g : Graph Float} {s : Strategy} {canvas : Canvas} {t : Timeline Float} {pixels : String}
  {p d n : Nat}

theorem atMost_times (hShow : g.IsSlideshow s canvas t pixels n) (h : t.Counted p d)
    (hCount : n < 2 ^ 64) {m : Node Float} (hm : m ∈ g.nodes) {f : Filter Float}
    (hf : f ∈ m.filters) : ∀ x ∈ f.times, AtMost (Timeline.span p d (s.pictures n)) x := by
  have hBlend : AtMost (Timeline.span p d (s.pictures n)) t.blend := ⟨d, h.blend, h.blend_le _⟩
  have hTimeless {pixels : String} : (Filter.format pixels : Filter Float).times = [] := rfl
  intro x hx
  rcases hShow.mem_nodes_iff.mp hm with ⟨i, hi, rfl⟩ | ⟨-, i, hi, rfl⟩ | hNode | rfl
  · have hNone : ∀ f ∈ (normalNode canvas i : Node Float).filters, f.times = [] := by
      simp [normalNode, Filter.times]
    rw [hNone f hf] at hx
    cases hx
  · rw [List.mem_singleton.mp hf] at hx
    rcases List.mem_pair.mp hx with rfl | rfl
    · exact atMost_zero _
    · exact hBlend
  · obtain ⟨k, hk, hFilters⟩ := Chain.filters_of_mem_blendNodes hNode
    rw [hFilters, List.mem_singleton] at hf
    rw [s.length_laterEntries] at hk
    rw [hf] at hx
    rcases List.mem_pair.mp hx with rfl | rfl
    · exact hBlend
    · exact s.atMost_start h (by omega) hCount
  · rcases List.mem_append.mp hf with hExit | hFormat
    · exact s.atMost_exits h hShow.pos hCount f hExit x hx
    · rw [List.mem_singleton.mp hFormat, hTimeless] at hx
      cases hx

end Graph.IsSlideshow

namespace Request

variable {r : Request Float} {c : Config.Checked Float} {j : Job Float}

theorem times_inputs_job {t : Timeline Float} {i : Input Float} (hi : i ∈ (r.job c t).inputs)
    {x : Float} (hx : x ∈ i.times) : x = t.window := by
  rcases List.mem_append.mp hi with hi | hi
  · obtain ⟨source, hSource, rfl⟩ := List.mem_map.mp hi
    obtain ⟨entry, -, rfl⟩ := List.mem_map.mp hSource
    exact List.mem_singleton.mp hx
  · obtain ⟨path, -, rfl⟩ := List.mem_map.mp hi
    cases hx

theorem counts_duration_job {t : Timeline Float} {p d : Nat} (h : t.Counted p d)
    (hImages : r.images ≠ []) (hCount : r.images.length < 2 ^ 64) :
    Counts (r.job c t).duration (Timeline.span p d
      ((Strategy.ofKind r.settings.transition c.config.fadeOffsets).pictures r.images.length)) := by
  have hPos := List.length_pos_iff.mpr hImages
  change Counts (Strategy.duration _ t r.images.length) _
  rw [Strategy.duration_eq_total]
  exact h.counts_total (Strategy.pictures_pos _ hPos)
    (Nat.lt_of_le_of_lt (Strategy.pictures_le _ _) hCount)

theorem atMost_times_job {t : Timeline Float} {p d : Nat} (h : t.Counted p d)
    (hImages : r.images ≠ []) (hCount : r.images.length < 2 ^ 64) :
    ∀ x ∈ (r.job c t).times, AtMost (Timeline.span p d
      ((Strategy.ofKind r.settings.transition c.config.fadeOffsets).pictures r.images.length)) x := by
  have hPos := List.length_pos_iff.mpr hImages
  intro x hx
  rcases List.mem_append.mp hx with hx | hDuration
  · rcases List.mem_append.mp hx with hInput | hGraph
    · obtain ⟨i, hi, hx⟩ := List.mem_flatMap.mp hInput
      rw [times_inputs_job hi hx]
      exact ⟨_, h.counts_window, Timeline.span_mono (Strategy.pictures_pos _ hPos)⟩
    · obtain ⟨m, hm, hx⟩ := List.mem_flatMap.mp hGraph
      obtain ⟨f, hf, hx⟩ := List.mem_flatMap.mp hx
      exact (r.isSlideshow_job c t hImages).atMost_times h hCount (Array.mem_toList_iff.mp hm) hf
        x hx
  · rw [List.mem_singleton.mp hDuration]
    exact ⟨_, counts_duration_job h hImages hCount, Nat.le_refl _⟩

/-- The arguments, the graph's text among them, are fixed texts and the texts of a job's times. No
time lies beyond the duration, so all of them are written as plain decimals exactly when the
duration is finite. It is for times up to `1e288`; an infinite time is written `inf`. The number of
images is one that a machine word holds. -/
theorem assemble_times (h : (r.assemble c).result = .ok j) (hCount : r.images.length < 2 ^ 64) :
    (j.args = j.pieces.map Piece.written ∧ j.graph.expression = Piece.written j.graph.pieces ∧
      j.times = j.pieces.flatten.filterMap Piece.time? ++ [j.duration]) ∧
    ((∀ x ∈ j.times, x.isFinite = true ∧ Layout.IsPlain (Seconds.text x)) ↔
      j.duration.isFinite = true) ∧
    (∀ x ∈ j.times, x ≤ j.duration ∧ (x.isFinite = false → Seconds.text x = "inf")) ∧
    (c.config.photo ≤ 1e288 → r.settings.duration ≤ 1e288 → j.duration.isFinite = true) := by
  obtain ⟨⟨hImages, -, -⟩, t, ⟨hPhoto, hBlend⟩, rfl⟩ := result_assemble_eq_ok_iff.mp h
  obtain ⟨p, d, hTimes⟩ := t.exists_counted
  have hDuration := counts_duration_job (c := c) hTimes hImages hCount
  have hBound := atMost_times_job (c := c) hTimes hImages hCount
  refine ⟨⟨(Job.map_written_pieces _).symm, (Graph.written_pieces _).symm, Job.times_eq_pieces _⟩,
    ⟨fun hAll => (hAll _ (Job.duration_mem_times _)).1, fun hFinite x hx => ?_⟩,
    fun x hx => ?_, fun hSmall hShort => ?_⟩
  -- The duration's count bounds every other, so a finite duration leaves none at the limit.
  · obtain ⟨n, hx, hn⟩ := hBound x hx
    have hx' := hx.isFinite_iff.mpr (Nat.lt_of_le_of_lt hn (hDuration.isFinite_iff.mp hFinite))
    exact ⟨hx', hx.isPlain_text hx'⟩
  · obtain ⟨n, hx, hn⟩ := hBound x hx
    exact ⟨(hx.le_iff hDuration).mpr (by omega), hx.text_eq_inf⟩
  · have hp := le_of_le_bound hTimes.photo (hPhoto ▸ hSmall)
    have hd := le_of_le_bound hTimes.blend (hBlend ▸ hShort)
    have hPictures := Strategy.pictures_le
      (Strategy.ofKind r.settings.transition c.config.fadeOffsets) r.images.length
    exact hDuration.isFinite_iff.mpr
      (Timeline.span_lt_limit (by decide) hp hd (Nat.le_trans hPictures hCount.le))

/-- Fades between three pictures, with times just below the bound. -/
theorem assemble_times_long :
    let c : Config.Checked Float := ⟨{ Config.usual with photo := 1e288 }, by decide +kernel⟩
    let t : Timeline Float := ⟨1e288, 1e288, by decide +kernel, by decide +kernel⟩
    let image := Image.ofPath (.ofString "a.png")
    let r : Request Float :=
      ⟨[image, image, image], none, ⟨.fade, 1e288, .usual⟩, .ofString "out.mp4"⟩
    (r.assemble c).result = .ok (r.job c t) ∧ r.images.length < 2 ^ 64 ∧
      (r.job c t).duration = 4e288 ∧
      ∀ x ∈ (r.job c t).times, x.isFinite = true ∧ Layout.IsPlain (Seconds.text x) := by
  intro c t image r
  have hJob : (r.assemble c).result = .ok (r.job c t) :=
    result_assemble_eq_ok_iff.mpr
      ⟨⟨by simp [r], by decide, ⟨by simp [r, image, Image.ofPath], by simp [r], by simp [r]⟩⟩, t,
        ⟨rfl, rfl⟩, rfl⟩
  have hCount : r.images.length < 2 ^ 64 := by decide
  obtain ⟨-, hPlain, -, hFinite⟩ := assemble_times hJob hCount
  exact ⟨hJob, hCount, by decide +kernel,
    hPlain.mpr (hFinite (by decide +kernel) (by decide +kernel))⟩

/-- Two accepted times whose sum is infinite. -/
theorem assemble_times_infinite :
    let c : Config.Checked Float := ⟨{ Config.usual with photo := 1e308 }, by decide +kernel⟩
    let t : Timeline Float := ⟨1e308, 1e308, by decide +kernel, by decide +kernel⟩
    let r : Request Float :=
      ⟨[.ofPath (.ofString "a.png")], none, ⟨.dissolve, 1e308, .usual⟩, .ofString "out.mp4"⟩
    (r.assemble c).result = .ok (r.job c t) ∧
      (∃ hold, .still (.ofString "a.png") hold ∈ (r.job c t).inputs ∧ hold.isFinite = false) ∧
      (r.job c t).duration.isFinite = false ∧ "inf" ∈ (r.job c t).args := by
  intro c t r
  have hJob : (r.assemble c).result = .ok (r.job c t) :=
    result_assemble_eq_ok_iff.mpr
      ⟨⟨by simp [r], by decide, ⟨by simp [r, Image.ofPath], by simp [r], by simp [r]⟩⟩, t,
        ⟨rfl, rfl⟩, rfl⟩
  have hHold : .still (.ofString "a.png") t.window ∈ (r.job c t).inputs :=
    List.mem_of_getElem? (getElem?_inputs_job r c t (i := 0) rfl)
  have hText : Seconds.text t.window = "inf" := by decide +kernel
  have hArgs : "inf" ∈ (r.job c t).args := by
    rw [Job.args_eq]
    exact List.mem_append_left _ (List.mem_flatMap.mpr ⟨_, hHold, by simp [Input.args, hText]⟩)
  exact ⟨hJob, ⟨t.window, hHold, by decide +kernel⟩, by decide +kernel, hArgs⟩

end Request

end Diaporama
