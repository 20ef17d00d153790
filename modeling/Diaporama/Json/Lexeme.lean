import Diaporama.Decimal.Numeral
import Diaporama.Json.Fault

/-!
# Strings and numbers in a JSON text

A string is read byte by byte up to its closing quote. A string that is kept must be text and may
not break a surrogate pair; of one that is skipped only the escapes have to be well formed. A number
is read as digits first and given a value afterwards: an integer if it has neither fraction nor
exponent and fits, else a double made from the leading digits that fit in 64 bits by one
multiplication or division with a power of ten.
-/

namespace Diaporama.Json

/-- What a scan over bytes leaves: a value and the bytes behind it. -/
abbrev Scanned (α : Type) := α × List UInt8

def isSpace (b : UInt8) : Bool :=
  b = 0x20 || b = 0x09 || b = 0x0A || b = 0x0D

def dropSpace (bs : List UInt8) : List UInt8 :=
  bs.dropWhile isSpace

def scanWord : List Char → List UInt8 → Except SyntaxFault (List UInt8)
  | [], bs => .ok bs
  | _ :: _, [] => .error .endInValue
  | c :: cs, b :: bs => if Char.ofUInt8 b = c then scanWord cs bs else .error .noWord

/-! ## Strings -/

inductive StringState where
  | text
  | escape
  /-- Inside the four digits of an escape, perhaps after a leading surrogate. -/
  | hex (lead : Option Nat) (digits : List UInt8)
  | afterLead (lead : Nat)
  | afterLeadEscape (lead : Nat)

def hexDigit? (b : UInt8) : Option Nat :=
  let n := b.toNat
  if 48 ≤ n && n ≤ 57 then some (n - 48)
  else if 65 ≤ n && n ≤ 70 then some (n - 55)
  else if 97 ≤ n && n ≤ 102 then some (n - 87)
  else none

/-- The value of hexadecimal digits, the last of them first. -/
def hexValue? : List UInt8 → Option Nat
  | [] => some 0
  | b :: bs => do
    let digit ← hexDigit? b
    let rest ← hexValue? bs
    return 16 * rest + digit

def isLeadSurrogate (n : Nat) : Bool := 0xD800 ≤ n && n < 0xDC00

def isTrailSurrogate (n : Nat) : Bool := 0xDC00 ≤ n && n < 0xE000

def charBytes (n : Nat) : List UInt8 :=
  (Char.ofNat n).toString.toUTF8.toList

inductive StringStep where
  | close
  | go (bytes : List UInt8) (next : StringState)

/-- The code unit of a finished `\u` escape, after the leading surrogate `lead` if there is one. -/
def unitStep (keeps : Bool) (lead : Option Nat) (unit : Nat) : Except SyntaxFault StringStep :=
  if !keeps then .ok (.go [] .text)
  else match lead with
    | some high =>
      if isTrailSurrogate unit then
        .ok (.go (charBytes (0x10000 + 0x400 * (high - 0xD800) + (unit - 0xDC00))) .text)
      else .error .loneSurrogate
    | none =>
      if isTrailSurrogate unit then .error .loneSurrogate
      else if isLeadSurrogate unit then .ok (.go [] (.afterLead unit))
      else .ok (.go (charBytes unit) .text)

def escapeStep (b : UInt8) : Except SyntaxFault StringStep :=
  match Char.ofUInt8 b with
  | '"' | '\\' | '/' => .ok (.go [b] .text)
  | 'b' => .ok (.go [0x08] .text)
  | 'f' => .ok (.go [0x0C] .text)
  | 'n' => .ok (.go [0x0A] .text)
  | 'r' => .ok (.go [0x0D] .text)
  | 't' => .ok (.go [0x09] .text)
  | 'u' => .ok (.go [] (.hex none []))
  | _ => .error .badEscape

def stringStep (keeps : Bool) (state : StringState) (b : UInt8) : Except SyntaxFault StringStep :=
  match state with
  | .text =>
    match Char.ofUInt8 b with
    | '"' => .ok .close
    | '\\' => .ok (.go [] .escape)
    | _ => if b < 0x20 then .error .controlCharacter else .ok (.go [b] .text)
  | .escape => escapeStep b
  | .hex lead digits =>
    if digits.length < 3 then .ok (.go [] (.hex lead (b :: digits)))
    else match hexValue? (b :: digits) with
      | some unit => unitStep keeps lead unit
      | none => .error .badEscape
  | .afterLead lead =>
    if Char.ofUInt8 b = '\\' then .ok (.go [] (.afterLeadEscape lead)) else .error .endOfHexEscape
  | .afterLeadEscape lead =>
    if Char.ofUInt8 b = 'u' then .ok (.go [] (.hex (some lead) [])) else .error .endOfHexEscape

/-- The bytes of a string up to its closing quote; `done` holds those read so far, backwards. -/
def scanBytes (keeps : Bool) (state : StringState) (done : List UInt8) :
    List UInt8 → Except SyntaxFault (Scanned (List UInt8))
  | [] => .error .endInString
  | b :: bs =>
    match stringStep keeps state b with
    | .error fault => .error fault
    | .ok .close => .ok (done.reverse, bs)
    | .ok (.go bytes next) => scanBytes keeps next (bytes.reverse ++ done) bs

def scanString (bs : List UInt8) : Except SyntaxFault (Scanned String) := do
  let (bytes, rest) ← scanBytes true .text [] bs
  match String.fromUTF8? bytes.toByteArray with
  | some s => return (s, rest)
  | none => throw .badCodePoint

def skipString (bs : List UInt8) : Except SyntaxFault (List UInt8) :=
  (scanBytes false .text [] bs).map (·.2)

/-! ## Numbers -/

structure Digits where
  negative : Bool
  whole : List Nat
  fraction : Option (List Nat)
  /-- Whether the exponent is negative, and its digits. -/
  exponent : Option (Bool × List Nat)

def digit? (b : UInt8) : Option Nat :=
  if 48 ≤ b.toNat && b.toNat ≤ 57 then some (b.toNat - 48) else none

def spanDigits : List UInt8 → List Nat × List UInt8
  | [] => ([], [])
  | b :: bs =>
    match digit? b with
    | some d =>
      let (ds, rest) := spanDigits bs
      (d :: ds, rest)
    | none => ([], b :: bs)

def scanDigits (bs : List UInt8) : Except SyntaxFault (Scanned (List Nat)) :=
  match bs, spanDigits bs with
  | [], _ => .error .endInValue
  | _ :: _, ([], _) => .error .badNumber
  | _ :: _, (ds, rest) => .ok (ds, rest)

/-- The digits before the point: a zero stands alone. -/
def scanWhole (bs : List UInt8) : Except SyntaxFault (Scanned (List Nat)) := do
  match ← scanDigits bs with
  | (0 :: _ :: _, _) => throw .badNumber
  | found => return found

def scanFraction (bs : List UInt8) : Except SyntaxFault (Scanned (Option (List Nat))) :=
  match bs with
  | 0x2E :: rest => (scanDigits rest).map fun (ds, rest) => (some ds, rest)
  | _ => .ok (none, bs)

def exponentSign : List UInt8 → Bool × List UInt8
  | 0x2B :: bs => (false, bs)
  | 0x2D :: bs => (true, bs)
  | bs => (false, bs)

def scanExponent (bs : List UInt8) : Except SyntaxFault (Scanned (Option (Bool × List Nat))) :=
  match bs with
  | b :: rest =>
    if Char.ofUInt8 b = 'e' || Char.ofUInt8 b = 'E' then
      let (negative, rest) := exponentSign rest
      (scanDigits rest).map fun (ds, rest) => (some (negative, ds), rest)
    else .ok (none, bs)
  | [] => .ok (none, [])

def scanNumber (negative : Bool) (bs : List UInt8) : Except SyntaxFault (Scanned Digits) := do
  let (whole, bs) ← scanWhole bs
  let (fraction, bs) ← scanFraction bs
  let (exponent, bs) ← scanExponent bs
  return (⟨negative, whole, fraction, exponent⟩, bs)

/-- A number that is skipped: whatever is wrong with it, it is no number. -/
def skipNumber (bs : List UInt8) : Except SyntaxFault (List UInt8) :=
  match scanNumber false bs with
  | .ok (_, rest) => .ok rest
  | .error _ => .error .badNumber

inductive Number where
  | natural (n : Nat)
  /-- The integer `-(n + 1)`. -/
  | negative (n : Nat)
  | real (x : Float)

/-- Takes up digits as long as the number fits in 64 bits, and counts the digits left out. -/
def absorb (n : Nat) : List Nat → Nat × Nat
  | [] => (n, 0)
  | d :: ds => if 10 * n + d < UInt64.size then absorb (10 * n + d) ds else (n, ds.length + 1)

def powerOfTen (n : Nat) : Float :=
  Float.ofScientific 1 false n

def maxPower : Nat := 308

/-- The double for `x · 10 ^ exponent`, by as few roundings as its range allows. -/
def scale (x : Float) (exponent : Int) : Except SyntaxFault Float :=
  if exponent.natAbs ≤ maxPower then
    if 0 ≤ exponent then
      let scaled := x * powerOfTen exponent.toNat
      if scaled.isInf then .error .numberTooLarge else .ok scaled
    else .ok (x / powerOfTen exponent.natAbs)
  else if x == 0.0 then .ok x
  else if 0 ≤ exponent then .error .numberTooLarge
  else scale (x / powerOfTen maxPower) (exponent + maxPower)
termination_by exponent.natAbs
decreasing_by simp only [maxPower] at *; omega

/-- Exponents from here on are too large, or make the number vanish. -/
def exponentLimit : Nat := UInt32.size / 2

namespace Digits

def signed (d : Digits) (x : Float) : Float :=
  if d.negative then -x else x

/-- The digits that are taken up, as a number, and the power of ten that belongs to them. -/
def significand (d : Digits) : Nat × Int :=
  let (n, left) := absorb 0 d.whole
  match d.fraction with
  | none => (n, left)
  | some ds =>
    let (m, skipped) := absorb n ds
    (m, (left : Int) - (ds.length - skipped : Nat))

def toReal (d : Digits) : Except SyntaxFault Float :=
  let (n, power) := d.significand
  let x := n.toUInt64.toFloat
  match d.exponent with
  | none => (scale x power).map d.signed
  | some (negative, ds) =>
    let e := ds.foldl (fun n d => 10 * n + d) 0
    if exponentLimit ≤ e then
      if n ≠ 0 && !negative then .error .numberTooLarge else .ok (d.signed 0.0)
    else (scale x (if negative then power - e else power + e)).map d.signed

/-- An integer of 64 bits where there is one, else a double. -/
def toNumber (d : Digits) : Except SyntaxFault Number :=
  let (n, left) := absorb 0 d.whole
  if d.fraction.isNone && d.exponent.isNone && left = 0 then
    if !d.negative then .ok (.natural n)
    else if 0 < n && n ≤ UInt64.size / 2 then .ok (.negative (n - 1))
    else .ok (.real (d.signed n.toUInt64.toFloat))
  else d.toReal.map .real

end Digits

/-! ## Values that are skipped -/

inductive Bracket where
  | list
  | object
  deriving DecidableEq, Repr

def Bracket.endFault : Bracket → SyntaxFault
  | list => .endInList
  | object => .endInObject

def Bracket.commaFault : Bracket → SyntaxFault
  | list => .noCommaOrBracket
  | object => .noCommaOrBrace

def Bracket.closes (bracket : Bracket) (c : Char) : Bool :=
  match bracket with
  | list => c = ']'
  | object => c = '}'

/-- The key and the colon before a member of an object; nothing before an item of a list. -/
def skipKey (bracket : Bracket) (bs : List UInt8) : Except SyntaxFault (List UInt8) :=
  match bracket with
  | .list => .ok bs
  | .object =>
    match dropSpace bs with
    | [] => .error .endInObject
    | b :: rest =>
      if Char.ofUInt8 b ≠ '"' then .error .keyNoString
      else do
        let rest ← skipString rest
        match dropSpace rest with
        | [] => throw .endInObject
        | b :: rest => if Char.ofUInt8 b = ':' then return rest else throw .noColon

/-- What a skip looks for next: a value, or what follows one (`after` is true) or an opening
bracket. -/
inductive SkipState where
  | value
  | next (after : Bool)

/-- Skips what is left of a value inside `open`; each round takes a byte or turns to a value. -/
def skipRounds : Nat → SkipState → List Bracket → List UInt8 → Except SyntaxFault (List UInt8)
  | 0, _, _, _ => .error .endInValue
  | rounds + 1, .value, brackets, bs =>
    match dropSpace bs with
    | [] => .error .endInValue
    | b :: rest => do
      match Char.ofUInt8 b with
      | 'n' => skipRounds rounds (.next true) brackets (← scanWord ['u', 'l', 'l'] rest)
      | 't' => skipRounds rounds (.next true) brackets (← scanWord ['r', 'u', 'e'] rest)
      | 'f' => skipRounds rounds (.next true) brackets (← scanWord ['a', 'l', 's', 'e'] rest)
      | '-' => skipRounds rounds (.next true) brackets (← skipNumber rest)
      | '"' => skipRounds rounds (.next true) brackets (← skipString rest)
      | '[' => skipRounds rounds (.next false) (.list :: brackets) rest
      | '{' => skipRounds rounds (.next false) (.object :: brackets) rest
      | c =>
        if c.isDigit then skipRounds rounds (.next true) brackets (← skipNumber (b :: rest))
        else throw .noValue
  | _ + 1, .next _, [], bs => .ok bs
  | rounds + 1, .next after, bracket :: brackets, bs =>
    match dropSpace bs with
    | [] => .error bracket.endFault
    | b :: rest =>
      if after && Char.ofUInt8 b = ',' then do
        skipRounds rounds .value (bracket :: brackets) (← skipKey bracket rest)
      else if bracket.closes (Char.ofUInt8 b) then
        skipRounds rounds (.next true) brackets rest
      else if after then .error bracket.commaFault
      else do
        skipRounds rounds .value (bracket :: brackets) (← skipKey bracket (b :: rest))

/-- Skips one value of any depth. -/
def skipValue (bs : List UInt8) : Except SyntaxFault (List UInt8) :=
  skipRounds (2 * bs.length + 2) .value [] bs

end Diaporama.Json
