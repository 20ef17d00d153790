/-!
# Doubles as integers

A double is read off its bits: no number at all, an infinity, or an integer significand times a
power of two with a sign. The reals that round to a finite positive double form an interval; in
quarters of the last binary place its ends are integers too, so that all later decisions about
decimals are made in exact integer arithmetic.
-/

namespace Diaporama

/-- What the 64 bits of a double stand for. -/
inductive Binary64 where
  | nan
  | infinite (negative : Bool)
  | finite (negative : Bool) (significand : Nat) (exponent : Int)
  deriving DecidableEq, Repr

namespace Binary64

/-- The least significand of a double that is not near zero, which has 53 binary digits. -/
def leastFull : Nat := 0x10000000000000

def powers : Nat := 0x800

def ofBits (bits : Nat) : Binary64 :=
  let negative := bits / leastFull / powers % 2 == 1
  let power : Nat := bits / leastFull % powers
  let fraction := bits % leastFull
  if power = powers - 1 then
    if fraction = 0 then infinite negative else nan
  else if power = 0 then
    finite negative fraction (-1074)
  else
    finite negative (fraction + leastFull) ((power : Int) - 1075)

def ofFloat (x : Float) : Binary64 :=
  ofBits x.toBits.toNat

/-- A significand at the bottom of its binade lies closer to its lower neighbour than to its upper
one, except in the lowest binade, where all steps are equal. -/
def isBinadeStart (significand : Nat) (exponent : Int) : Bool :=
  significand == leastFull && decide (-1074 < exponent)

end Binary64

/-- The reals that round to one positive double, in quarters of its last binary place. The ends
belong to the interval exactly when the significand is even. -/
structure RoundingInterval where
  lower : Nat
  centre : Nat
  upper : Nat
  closed : Bool
  deriving DecidableEq, Repr

namespace RoundingInterval

def ofSignificand (significand : Nat) (exponent : Int) : RoundingInterval where
  lower := 4 * significand - if Binary64.isBinadeStart significand exponent then 1 else 2
  centre := 4 * significand
  upper := 4 * significand + 2
  closed := significand % 2 == 0

def admits (r : RoundingInterval) (a b : Nat) : Bool :=
  if r.closed then decide (r.lower * b ≤ a) && decide (a ≤ r.upper * b)
  else decide (r.lower * b < a) && decide (a < r.upper * b)

theorem admits_iff {r : RoundingInterval} {a b : Nat} :
    r.admits a b = true ↔
      if r.closed then r.lower * b ≤ a ∧ a ≤ r.upper * b
      else r.lower * b < a ∧ a < r.upper * b := by
  unfold admits
  split <;> simp

end RoundingInterval

end Diaporama
