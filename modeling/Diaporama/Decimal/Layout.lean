import Diaporama.Decimal.Shortest

/-!
# How the digits of a double are set out

The digits of a double are the fewest that read back; a `Layout` holds what a text format decides
on top: which numbers are written without an exponent, whether a whole number keeps `.0`, whether
a positive exponent carries a sign, and where a tie between two shortest decimals goes.
-/

namespace Diaporama

structure Layout where
  /-- Whether a number whose leading digit has this exponent is written without an exponent. -/
  positional : Int → Bool
  keepsPoint : Bool
  plusSign : Bool
  tie : Tie

namespace Layout

def zeros (n : Nat) : String :=
  String.ofList (List.replicate n '0')

/-- The digits of `d` around the point. -/
def positionalText (l : Layout) (d : Decimal) : String :=
  let ds := (toString d.digits).toList
  if 0 ≤ d.exponent then
    String.ofList ds ++ zeros d.exponent.toNat ++ if l.keepsPoint then ".0" else ""
  else
    let places := (-d.exponent).toNat
    if places < ds.length then
      String.ofList (ds.take (ds.length - places)) ++ "." ++
        String.ofList (ds.drop (ds.length - places))
    else
      "0." ++ zeros (places - ds.length) ++ String.ofList ds

/-- One digit before the point, the rest behind it, and the exponent of the first. -/
def exponentText (l : Layout) (d : Decimal) (lead : Int) : String :=
  let ds := (toString d.digits).toList
  let fraction := match ds.drop 1 with
    | [] => ""
    | rest => "." ++ String.ofList rest
  let sign := if 0 ≤ lead && l.plusSign then "+" else ""
  String.ofList (ds.take 1) ++ fraction ++ "e" ++ sign ++ toString lead

def magnitude (l : Layout) (significand : Nat) (exponent : Int) : String :=
  if significand = 0 then
    l.positionalText ⟨0, 0⟩
  else
    let d := Decimal.shortest l.tie significand exponent
    let lead := d.exponent + (toString d.digits).length - 1
    if l.positional lead then l.positionalText d else l.exponentText d lead

def text (l : Layout) (x : Float) : String :=
  let signed (negative : Bool) (t : String) := if negative then "-" ++ t else t
  match Binary64.ofFloat x with
  | .nan => "NaN"
  | .infinite negative => signed negative "inf"
  | .finite negative significand exponent => signed negative (l.magnitude significand exponent)

/-- Never an exponent and no point in a whole number; of two nearest decimals the greater. -/
def plain : Layout := ⟨fun _ => true, false, false, .up⟩

end Layout

end Diaporama
