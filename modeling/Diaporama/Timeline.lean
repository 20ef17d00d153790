import Diaporama.Config
import Diaporama.Style

/-!
# Timeline

Every picture is held for `P + D` seconds, where `P` is the display time and `D` the length of a
blend. The blend from picture `i` to picture `i + 1` starts at `P * (i + 1)`, which is `D` before
the pictures so far end; `n` pictures last `P * n + D`. Both times are positive.
-/

namespace Diaporama

structure Timeline (T : Type) [Seconds T] where
  photo : T
  blend : T
  photo_pos : Seconds.isPositive photo = true
  blend_pos : Seconds.isPositive blend = true

namespace Timeline

variable {T : Type} [Seconds T]

inductive Fault (T : Type) where
  | blend (value : T)
  | photo (value : T)
  deriving Repr

def make (photo blend : T) : Except (Fault T) (Timeline T) :=
  if hb : Seconds.isPositive blend = true then
    if hp : Seconds.isPositive photo = true then .ok ⟨photo, blend, hp, hb⟩
    else .error (.photo photo)
  else .error (.blend blend)

theorem make_eq_ok_iff {photo blend : T} {t : Timeline T} :
    make photo blend = .ok t ↔ t.photo = photo ∧ t.blend = blend := by
  unfold make
  constructor
  · intro h
    split at h
    · split at h
      · cases h
        exact ⟨rfl, rfl⟩
      · cases h
    · cases h
  · rintro ⟨rfl, rfl⟩
    simp [t.photo_pos, t.blend_pos]

def window (t : Timeline T) : T :=
  Seconds.add t.photo t.blend

/-- The start of the blend from picture `i` to picture `i + 1`. -/
def offset (t : Timeline T) (i : Nat) : T :=
  Seconds.mul t.photo (Seconds.add (Seconds.ofCount i) Seconds.one)

/-- The starts of all blends between `n` pictures. -/
def offsets (t : Timeline T) (n : Nat) : List T :=
  (List.range (n - 1)).map t.offset

def displayed (t : Timeline T) (n : Nat) : T :=
  Seconds.mul t.photo (Seconds.ofCount n)

/-- The length of the video of `n` pictures; without pictures there is none. -/
def total (t : Timeline T) (n : Nat) : T :=
  if n = 0 then Seconds.zero else Seconds.add (t.displayed n) t.blend

theorem length_offsets (t : Timeline T) (n : Nat) : (t.offsets n).length = n - 1 := by
  simp [offsets]

end Timeline

end Diaporama
