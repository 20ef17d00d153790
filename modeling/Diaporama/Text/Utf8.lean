/-!
# Text from bytes

Bytes are read as UTF-8 one at a time. A byte that cannot go on ends the character it interrupts;
each such part, as long as possible, is shown as the replacement character U+FFFD.
-/

namespace Diaporama.Text

def replacement : Char := Char.ofNat 0xFFFD

/-- A character of which some bytes were read: `rest` more are owed, and the next of them lies
between `low` and `high`. -/
structure PartialChar where
  code : Nat
  rest : Nat
  low : UInt8
  high : UInt8

/-- What a byte between characters gives: a finished character, or the start of a longer one. -/
def startChar (b : UInt8) : List Char × Option PartialChar :=
  let n := b.toNat
  let owe (code rest : Nat) (low : UInt8) (high : UInt8) : List Char × Option PartialChar :=
    ([], some ⟨code, rest, low, high⟩)
  if n < 0x80 then ([Char.ofNat n], none)
  else if n < 0xC2 then ([replacement], none)
  else if n < 0xE0 then owe (n - 0xC0) 1 0x80 0xBF
  else if n = 0xE0 then owe 0 2 0xA0 0xBF
  else if n = 0xED then owe 0xD 2 0x80 0x9F
  else if n < 0xF0 then owe (n - 0xE0) 2 0x80 0xBF
  else if n = 0xF0 then owe 0 3 0x90 0xBF
  else if n < 0xF4 then owe (n - 0xF0) 3 0x80 0xBF
  else if n = 0xF4 then owe 4 3 0x80 0x8F
  else ([replacement], none)

def continueChar (pending : Option PartialChar) (b : UInt8) : List Char × Option PartialChar :=
  match pending with
  | none => startChar b
  | some p =>
    if p.low ≤ b && b ≤ p.high then
      let code := 64 * p.code + (b.toNat - 0x80)
      if p.rest ≤ 1 then ([Char.ofNat code], none)
      else ([], some ⟨code, p.rest - 1, 0x80, 0xBF⟩)
    else
      let (cs, next) := startChar b
      (replacement :: cs, next)

def decodeLossy (pending : Option PartialChar) : List UInt8 → List Char
  | [] => if pending.isSome then [replacement] else []
  | b :: bs =>
    let (cs, next) := continueChar pending b
    cs ++ decodeLossy next bs

def lossy (bytes : ByteArray) : String :=
  match String.fromUTF8? bytes with
  | some s => s
  | none => String.ofList (decodeLossy none bytes.toList)

theorem lossy_eq_of_fromUTF8? {bytes : ByteArray} {s : String}
    (h : String.fromUTF8? bytes = some s) : lossy bytes = s := by
  simp [lossy, h]

end Diaporama.Text
