import Diaporama.Decimal.Layout

/-!
# Seconds

Times are taken from any type with the few operations the timeline needs, so that one and the same
timeline can be computed in doubles and reasoned about in exact numbers. The doubles are the
instance that runs; their text is the shortest plain decimal, and both zeros are written `0`.
-/

namespace Diaporama

class Seconds (T : Type) where
  zero : T
  one : T
  add : T → T → T
  mul : T → T → T
  ofCount : Nat → T
  /-- Finite and greater than zero. -/
  isPositive : T → Bool

namespace Seconds

instance : Seconds Float where
  zero := 0.0
  one := 1.0
  add := Float.add
  mul := Float.mul
  ofCount n := n.toUInt64.toFloat
  isPositive x := x.isFinite && decide (0.0 < x)

/-- The value of a time as it stands in a message, where a negative zero keeps its sign. -/
def shown (x : Float) : String :=
  Layout.plain.text x

/-- The text of a time in encoder arguments: equal times have equal texts. -/
def text (x : Float) : String :=
  shown (if x == 0.0 then 0.0 else x)

end Seconds

end Diaporama
