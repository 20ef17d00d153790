import Diaporama.Decimal.Binary64

/-!
# The fewest digits that read back

A positive double is written with the fewest decimal digits that round to it again. For 1, 2, …
digits the two neighbours of the double on the decimal grid of that many digits are tried; the first
grid with a hit wins, of two hits the nearer one, and a tie goes as the caller says. Seventeen
digits always suffice.
-/

namespace Diaporama

structure Decimal where
  digits : Nat
  exponent : Int
  deriving DecidableEq, Repr

/-- Where a number goes that lies half way between two neighbours. -/
inductive Tie where
  | up
  | even
  deriving DecidableEq, Repr

namespace Decimal

/-- The number of decimal digits of `n`; zero has one. -/
def digitCount (n : Nat) : Nat :=
  if n < 10 then 1 else digitCount (n / 10) + 1
termination_by n
decreasing_by omega

/-- The exponent of the leading digit of `a / b`, for positive `a` and `b`. -/
def leadingExponent (a b : Nat) : Int :=
  if b ≤ a then digitCount (a / b) - 1 else -(digitCount ((b - 1) / a) : Int)

def normalize (d : Decimal) : Decimal :=
  if h : d.digits ≠ 0 ∧ d.digits % 10 = 0 then
    normalize ⟨d.digits / 10, d.exponent + 1⟩
  else d
termination_by d.digits
decreasing_by
  have := h.1
  omega

def maxDigits : Nat := 17

/-- A decimal grid: its step is `stepNum / stepDen` quarters of the last binary place. -/
structure Grid where
  stepNum : Nat
  stepDen : Nat

/-- Of the two grid points around the centre of `r`, the one that stands for `r`. -/
def Grid.hit? (g : Grid) (tie : Tie) (r : RoundingInterval) : Option Nat :=
  let low := r.centre * g.stepDen / g.stepNum
  let rest := r.centre * g.stepDen % g.stepNum
  match r.admits (low * g.stepNum) g.stepDen, r.admits ((low + 1) * g.stepNum) g.stepDen with
  | false, false => none
  | true, false => some low
  | false, true => some (low + 1)
  | true, true =>
    if 2 * rest < g.stepNum then some low
    else if g.stepNum < 2 * rest then some (low + 1)
    else match tie with
      | .up => some (low + 1)
      | .even => some (if low % 2 = 0 then low else low + 1)

def shortest (tie : Tie) (significand : Nat) (exponent : Int) : Decimal :=
  let r := RoundingInterval.ofSignificand significand exponent
  let quarter := exponent - 2
  let num := Nat.pow 2 quarter.toNat
  let den := Nat.pow 2 (-quarter).toNat
  let lead := leadingExponent (r.centre * num) den
  let grid (count : Nat) : Int × Grid :=
    let unit := lead + 1 - count
    (unit, ⟨Nat.pow 10 unit.toNat * den, Nat.pow 10 (-unit).toNat * num⟩)
  let found := (List.range maxDigits).findSome? fun i =>
    let (unit, g) := grid (i + 1)
    (g.hit? tie r).map fun d => normalize ⟨d, unit⟩
  found.getD ⟨0, 0⟩

end Decimal

end Diaporama
