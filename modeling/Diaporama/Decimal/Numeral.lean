/-!
# Decimal numerals

The written form of a double on the command line: an optional sign, then `inf`, `infinity` or `nan`
in any case, or digits with an optional point and an optional exponent. At least one digit stands
before or behind the point. A numeral denotes the nearest double, ties to the even neighbour.
-/

namespace Diaporama

inductive Numeral where
  | nan
  | infinite (negative : Bool)
  | finite (negative : Bool) (digits : Nat) (exponent : Int)
  deriving DecidableEq, Repr

namespace Numeral

def spanDigits (cs : List Char) : List Char × List Char :=
  (cs.takeWhile Char.isDigit, cs.dropWhile Char.isDigit)

def digitsValue (ds : List Char) : Nat :=
  ds.foldl (fun n c => 10 * n + (c.toNat - '0'.toNat)) 0

/-- A leading sign; true stands for minus. -/
def takeSign : List Char → Bool × List Char
  | '-' :: cs => (true, cs)
  | '+' :: cs => (false, cs)
  | cs => (false, cs)

/-- The exponent that ends a numeral; nothing stands for zero. -/
def exponent? : List Char → Option Int
  | [] => some 0
  | c :: cs =>
    if c = 'e' || c = 'E' then
      let (negative, ds) := takeSign cs
      if !ds.isEmpty && ds.all Char.isDigit then
        some (if negative then -(digitsValue ds : Int) else digitsValue ds)
      else none
    else none

def fractionDigits : List Char → List Char × List Char
  | '.' :: cs => spanDigits cs
  | cs => ([], cs)

def parse? (s : String) : Option Numeral :=
  let (negative, cs) := takeSign s.toList
  let word := String.ofList (cs.map Char.toLower)
  if word = "nan" then some nan
  else if word = "inf" || word = "infinity" then some (infinite negative)
  else
    let (whole, rest) := spanDigits cs
    let (fraction, rest) := fractionDigits rest
    if whole.isEmpty && fraction.isEmpty then none
    else (exponent? rest).map fun e =>
      finite negative (digitsValue (whole ++ fraction)) (e - fraction.length)

def nearest (digits : Nat) (exponent : Int) : Float :=
  if 0 ≤ exponent then Float.ofScientific digits false exponent.toNat
  else Float.ofScientific digits true (-exponent).toNat

def toFloat : Numeral → Float
  | nan => 0.0 / 0.0
  | infinite negative => if negative then -1.0 / 0.0 else 1.0 / 0.0
  | finite negative digits exponent =>
    if negative then -(nearest digits exponent) else nearest digits exponent

end Numeral

end Diaporama
