/-!
# Canvas

The size in pixels of the pictures in the video. The colour format of the output halves both
sides, so a canvas built from free numbers has sides that are even and not zero.
-/

namespace Diaporama

structure Canvas where
  width : UInt32
  height : UInt32
  deriving DecidableEq, Repr

namespace Canvas

inductive Fault where
  | zeroSide
  | oddSide
  deriving DecidableEq, Repr

def Fault.message : Fault → String
  | zeroSide => "dimensions must be non-zero"
  | oddSide => "dimensions must be even (required for yuv420p output)"

def make (width height : UInt32) : Except Fault Canvas :=
  if width = 0 || height = 0 then .error .zeroSide
  else if width % 2 != 0 || height % 2 != 0 then .error .oddSide
  else .ok ⟨width, height⟩

def pair (c : Canvas) : String :=
  toString c.width ++ ":" ++ toString c.height

end Canvas

end Diaporama
