import Diaporama.Proofs.Slideshow.Exact
import Diaporama.Proofs.Slideshow.Finite

/-!
# The order of offsets

The offsets of a chain are those of its blends, in order. Each is a product with the display time,
rounded once, so none is earlier than those before it. Below the offset `2 ^ 50` the rounding never
brings two of them together, however small the display time is, unless they are infinite.
-/

namespace Diaporama

variable {T : Type}

/-! ## The offsets of a chain -/

def Filter.offset? : Filter T → Option T
  | .blend _ _ offset => some offset
  | _ => none

namespace Node

def offsets (ns : List (Node T)) : List T :=
  (ns.filter fun n => n.role == .transition).flatMap fun n => n.filters.filterMap Filter.offset?

theorem offsets_append (ns ms : List (Node T)) : offsets (ns ++ ms) = offsets ns ++ offsets ms := by
  simp [offsets]

theorem offsets_of_forall_ne {ns : List (Node T)} (h : ∀ n ∈ ns, n.role ≠ .transition) :
    offsets ns = [] := by
  have hNone : (ns.filter fun n => n.role == .transition) = [] := by
    simpa [List.filter_eq_nil_iff] using h
  rw [offsets, hNone, List.flatMap_nil]

end Node

theorem Chain.offsets_blendNodes (style : BlendStyle) (duration : T) (offset : Nat → T)
    (stem : String) (i : Nat) (first : String) (rest : List String) :
    Node.offsets (blendNodes style duration offset stem i first rest) =
      (List.range' i rest.length).map offset := by
  induction rest generalizing i first with
  | nil => rfl
  | cons second rest ih =>
      rw [List.length_cons, List.range'_succ, List.map_cons, ← ih (i + 1) (numbered stem i)]
      rfl

variable [Seconds T]

namespace Strategy

theorem offsets_chainNodes (s : Strategy) (c : Chain T) (h : c.sources ≠ []) :
    Node.offsets (s.chainNodes c) =
      (List.range (c.sources.length - 1)).map (s.start c.timeline) := by
  obtain ⟨first, rest, hEntering, hRest⟩ := s.exists_entering_eq_cons c h
  have hEntrances : Node.offsets (s.entrances c) = [] := by
    refine Node.offsets_of_forall_ne fun n hn => ?_
    unfold entrances at hn
    split at hn
    · obtain ⟨-, -, rfl⟩ := List.mem_map.mp hn
      simp [Chain.entranceNode]
    · cases hn
  have hOutput (last : String) (filters : List (Filter T)) :
      Node.offsets [c.outputNode last filters] = [] :=
    Node.offsets_of_forall_ne (by simp [Chain.outputNode])
  simp only [chainNodes, hEntering, Node.offsets_append, hEntrances, hOutput,
    Chain.offsets_blendNodes, hRest, List.nil_append, List.append_nil, List.range_eq_range']

theorem Accumulates.start_eq {s : Strategy} (h : s.Accumulates) (t : Timeline T) :
    s.start t = t.offset := by
  cases s with
  | blend => rfl
  | fade offsets =>
      cases offsets with
      | accumulate => rfl
      | constant => exact absurd rfl h

theorem Accumulates.offsets_plan? {s : Strategy} (hAccumulates : s.Accumulates) {c : Chain T}
    {steps : List (Step T)} (h : s.plan? c = some steps) :
    Node.offsets (steps.filterMap Step.node?) = c.timeline.offsets c.sources.length := by
  have hSources : c.sources ≠ [] := by
    intro hNone
    simp [plan?, hNone] at h
  obtain ⟨steps', hPlan, hNodes⟩ := s.plan?_nodes c hSources
  obtain rfl : steps' = steps := Option.some_inj.mp (hPlan.symm.trans h)
  rw [hNodes, s.offsets_chainNodes c hSources, hAccumulates.start_eq, Timeline.offsets]

end Strategy

/-! ## Their order in doubles -/

namespace Timeline

open Double

theorem Counted.counts_offset_of_lt {t : Timeline Float} {p d i : Nat} (h : t.Counted p d)
    (hi : i < 2 ^ 50) : Counts (t.offset i) (nearest (p * (i + 1))) := by
  have hStart := h.counts_offset (i := i) (by omega)
  rwa [nearest_of_lt (show i < 2 ^ 53 by omega),
    nearest_of_lt (show i + 1 < 2 ^ 53 by omega)] at hStart

theorem offset_le_offset (t : Timeline Float) {i j : Nat} (hij : i ≤ j) (hj : j + 1 < 2 ^ 64) :
    t.offset i ≤ t.offset j := by
  obtain ⟨p, d, hTimes⟩ := t.exists_counted
  have hFirst := hTimes.counts_offset (i := i) (by omega)
  have hLess : nearest (p * nearest (nearest i + 1)) ≤ nearest (p * nearest (nearest j + 1)) :=
    nearest_mono (Nat.mul_le_mul_left p (nearest_mono (Nat.succ_le_succ (nearest_mono hij))))
  exact (hFirst.le_iff (hTimes.counts_offset hj)).mpr (by omega)

/-- The first time is no later than the second, and earlier if the second is finite. -/
def Ahead (x y : Float) : Prop :=
  x ≤ y ∧ (y.isFinite = true → x < y)

theorem ahead_offset (t : Timeline Float) {i j : Nat} (hij : i < j) (hj : j < 2 ^ 50) :
    Ahead (t.offset i) (t.offset j) := by
  obtain ⟨p, d, hTimes⟩ := t.exists_counted
  have hFirst := hTimes.counts_offset_of_lt (Nat.lt_trans hij hj)
  have hSecond := hTimes.counts_offset_of_lt hj
  have hLess : nearest (p * (i + 1)) < nearest (p * (j + 1)) :=
    nearest_mul_lt_nearest_mul hTimes.photo_pos (by omega) (by omega)
  refine ⟨(hFirst.le_iff hSecond).mpr (by omega), fun hFinite => ?_⟩
  have hBelow := hSecond.isFinite_iff.mp hFinite
  exact (hFirst.lt_iff hSecond).mpr (by omega)

theorem pairwise_le_offsets (t : Timeline Float) {n : Nat} (hn : n < 2 ^ 64) :
    (t.offsets n).Pairwise (· ≤ ·) := by
  refine List.pairwise_map.mpr (List.pairwise_lt_range.imp_of_mem fun _ hj hij => ?_)
  have hRange := List.mem_range.mp hj
  exact t.offset_le_offset hij.le (by omega)

theorem pairwise_ahead_offsets (t : Timeline Float) (n : Nat) :
    ((t.offsets n).take (2 ^ 50)).Pairwise Ahead := by
  rw [offsets, ← List.map_take, List.take_range]
  refine List.pairwise_map.mpr (List.pairwise_lt_range.imp_of_mem fun _ hj hij => ?_)
  have hRange := List.mem_range.mp hj
  exact t.ahead_offset hij (by omega)

/-- The offsets of accepted times are in order, up to `2 ^ 50` strictly as far as they are finite, and
so are the offsets of every chain in which they accumulate. -/
theorem make_offsets_ordered {photo blend : Float} {t : Timeline Float}
    (h : make photo blend = .ok t) :
    (∀ i, t.offset i = photo * (i.toUInt64.toFloat + 1.0)) ∧
    (∀ i j, i < j → j < 2 ^ 50 → Ahead (t.offset i) (t.offset j)) ∧
    ∀ (s : Strategy) (c : Chain Float) (steps : List (Step Float)), s.Accumulates →
      c.timeline = t → c.sources.length < 2 ^ 64 → s.plan? c = some steps →
      let offsets := Node.offsets (steps.filterMap Step.node?)
      offsets.Pairwise (· ≤ ·) ∧ (offsets.take (2 ^ 50)).Pairwise Ahead := by
  obtain ⟨rfl, -⟩ := make_eq_ok_iff.mp h
  refine ⟨fun _ => rfl, fun i j hij hj => t.ahead_offset hij hj, ?_⟩
  rintro s c steps hAccumulates rfl hCount hPlan
  simp only [hAccumulates.offsets_plan? hPlan]
  exact ⟨c.timeline.pairwise_le_offsets hCount, c.timeline.pairwise_ahead_offsets _⟩

/-- Multiples of the least positive double. -/
theorem make_offsets_ordered_least :
    let t : Timeline Float := ⟨5e-324, 0.5, by decide +kernel, by decide +kernel⟩
    make 5e-324 0.5 = .ok t ∧ t.offset 0 < t.offset 1 ∧ t.offset 1 < t.offset 2 := by
  intro t
  have hMake : make 5e-324 0.5 = .ok t := make_eq_ok_iff.mpr ⟨rfl, rfl⟩
  obtain ⟨-, hOffset, -⟩ := make_offsets_ordered hMake
  exact ⟨hMake, (hOffset 0 1 (by omega) (by omega)).2 (by decide +kernel),
    (hOffset 1 2 (by omega) (by omega)).2 (by decide +kernel)⟩

end Timeline

end Diaporama
