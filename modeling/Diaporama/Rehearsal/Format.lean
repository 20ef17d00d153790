import Diaporama.Decimal.Binary64
import Diaporama.Decimal.Numeral
import Diaporama.Rehearsal.Octets

/-!
# Formats

Directives of a format say how a text, an integer or a real number is written: with which sign, width
and precision, and on which side it is filled up. Reals are rounded exactly, a half to the even digit.
Escapes in a text stand for other characters.
-/

namespace Diaporama.Rehearsal.Format

/-! ## Escapes -/

def isOctal (c : Char) : Bool := '0' ≤ c && c ≤ '7'

def byte (n : Nat) : Char := Char.ofNat (n % 256)

def letterEscape? (c : Char) : Option Char :=
  match c with
  | 'a' => some (Char.ofNat 7)
  | 'b' => some (Char.ofNat 8)
  | 'f' => some (Char.ofNat 12)
  | 'n' => some '\n'
  | 'r' => some '\r'
  | 't' => some '\t'
  | 'v' => some (Char.ofNat 11)
  | '\\' => some '\\'
  | _ => none

/-- The character that an escape stands for, behind its backslash, and what follows; an escape that
is none is a backslash. -/
def escapeAt (cs : Octets) : Char × Octets :=
  match cs with
  | [] => ('\\', [])
  | c :: rest =>
    match if c = 'e' then some (Char.ofNat 27) else letterEscape? c with
    | some sign => (sign, rest)
    | none =>
      let ds := (cs.take 3).takeWhile isOctal
      if ds.isEmpty then ('\\', cs) else (byte (Octets.numberIn 8 ds), cs.drop ds.length)

/-- A text with its escapes replaced, and whether an escape ended it early. Octal digits stand behind
a zero. -/
def unescape : Nat → Octets → Octets × Bool
  | 0, cs => (cs, false)
  | _ + 1, [] => ([], false)
  | _ + 1, '\\' :: 'c' :: _ => ([], true)
  | fuel + 1, '\\' :: cs =>
    let (c, rest) := match cs with
      | '0' :: digits =>
        let ds := (digits.take 3).takeWhile isOctal
        (byte (Octets.numberIn 8 ds), digits.drop ds.length)
      | cs => escapeAt cs
    let (text, ended) := unescape fuel rest
    (c :: text, ended)
  | fuel + 1, c :: cs =>
    let (text, ended) := unescape fuel cs
    (c :: text, ended)

def unescaped (cs : Octets) : Octets × Bool :=
  unescape (cs.length + 1) cs

/-! ## Numbers -/

structure NumberRead where
  value : Int
  rest : Octets
  isRead : Bool
  isOut : Bool

/-- The integer at the start of a text, behind blanks and a sign; its base is seen from how it starts,
unless it is given. Numbers beyond the limits are brought back to them. -/
def integerAt (base? : Option Nat) (least : Int) (largest : Nat) (cs : Octets) : NumberRead :=
  let trimmed := cs.dropWhile Octets.isSpace
  let (isNegative, digits) := match trimmed with
    | '-' :: rest => (true, rest)
    | '+' :: rest => (false, rest)
    | rest => (false, rest)
  let isHex (cs : Octets) : Bool := match cs with
    | '0' :: x :: d :: _ => (x = 'x' || x = 'X') && Octets.isDigitIn 16 d
    | _ => false
  let (base, digits) := match base? with
    | some 16 => (16, if isHex digits then digits.drop 2 else digits)
    | some base => (base, digits)
    | none =>
      if isHex digits then (16, digits.drop 2)
      else if digits.head? = some '0' then (8, digits) else (10, digits)
  let ds := digits.takeWhile (Octets.isDigitIn base)
  if ds.isEmpty then ⟨0, cs, false, false⟩
  else
    let n : Int := Octets.numberIn base ds
    let n := if isNegative then -n else n
    let bounded := if n < least then least else if largest < n then largest else n
    ⟨bounded, digits.drop ds.length, true, n ≠ bounded⟩

def largestSigned : Nat := 0x7FFFFFFFFFFFFFFF

def largestUnsigned : Nat := 0xFFFFFFFFFFFFFFFF

def signedAt (cs : Octets) : NumberRead :=
  integerAt none (-(largestSigned : Int) - 1) largestSigned cs

/-- A negative number stands for the one that is the same on 64 bits. -/
def unsignedAt (cs : Octets) : NumberRead :=
  let r := integerAt none (-(largestUnsigned : Int)) largestUnsigned cs
  { r with value := (r.value % ((largestUnsigned : Int) + 1)) }

def numeralAt (cs : Octets) : Octets :=
  let isSign (c : Char) := c = '-' || c = '+'
  let sign := (cs.take 1).takeWhile isSign
  let rest := cs.drop sign.length
  let whole := rest.takeWhile Char.isDigit
  let behind := rest.drop whole.length
  let fraction := match behind with
    | '.' :: ds => '.' :: ds.takeWhile Char.isDigit
    | _ => []
  if whole.isEmpty && fraction.length ≤ 1 then []
  else
    let exponent := match behind.drop fraction.length with
      | e :: ds =>
        let mark := (ds.take 1).takeWhile isSign
        let digits := (ds.drop mark.length).takeWhile Char.isDigit
        if (e = 'e' || e = 'E') && !digits.isEmpty then e :: mark ++ digits else []
      | [] => []
    sign ++ whole ++ fraction ++ exponent

/-- The real at the start of a text, and what follows it; nothing if there is none. -/
def realAt? (cs : Octets) : Option (Float × Octets) :=
  let trimmed := cs.dropWhile Octets.isSpace
  let numeral := numeralAt trimmed
  if numeral.isEmpty then none
  else (Numeral.parse? (String.ofList numeral)).map fun n =>
    (n.toFloat, trimmed.drop numeral.length)

/-! ## Directives -/

structure Directive where
  flags : Octets
  width : Nat
  precision : Option Nat
  letter : Char

namespace Directive

def has (d : Directive) (flag : Char) : Bool :=
  d.flags.contains flag

/-- A text at its least width: blanks before it, behind it, or zeros behind its sign. -/
def filled (d : Directive) (fillsZeros : Bool) (sign body : Octets) : Octets :=
  let missing := d.width - (sign.length + body.length)
  if d.has '-' then sign ++ body ++ List.replicate missing ' '
  else if fillsZeros && d.has '0' then sign ++ List.replicate missing '0' ++ body
  else List.replicate missing ' ' ++ sign ++ body

def text (d : Directive) (cs : Octets) : Octets :=
  d.filled false [] (match d.precision with
    | some n => cs.take n
    | none => cs)

def character (d : Directive) (cs : Octets) : Octets :=
  d.filled false [] (cs.take 1)

def signOf (d : Directive) (isNegative : Bool) : Octets :=
  if isNegative then ['-'] else if d.has '+' then ['+'] else if d.has ' ' then [' '] else []

def digits (d : Directive) (ds : Octets) : Octets :=
  let ds := if ds = ['0'] && d.precision = some 0 then [] else ds
  List.replicate ((d.precision.getD 1) - ds.length) '0' ++ ds

def integer (d : Directive) (n : Int) : Octets :=
  d.filled d.precision.isNone (d.signOf (n < 0)) (d.digits (Octets.ofNat n.natAbs))

def unsigned (d : Directive) (n : Nat) : Octets :=
  match d.letter with
  | 'o' =>
    let ds := d.digits (Octets.ofNatIn 8 n)
    d.filled d.precision.isNone [] (if d.has '#' && ds.head? ≠ some '0' then '0' :: ds else ds)
  | 'x' =>
    d.filled d.precision.isNone (if d.has '#' && n ≠ 0 then ['0', 'x'] else [])
      (d.digits (Octets.ofNatIn 16 n))
  | 'X' =>
    d.filled d.precision.isNone (if d.has '#' && n ≠ 0 then ['0', 'X'] else [])
      (d.digits ((Octets.ofNatIn 16 n).map Char.toUpper))
  | _ => d.filled d.precision.isNone [] (d.digits (Octets.ofNat n))

end Directive

/-- The quotient rounded to the nearest integer, a half to the even one. -/
def rounded (n d : Nat) : Nat :=
  let q := n / d
  let r := 2 * (n % d)
  if r < d then q else if d < r then q + 1 else if q % 2 = 0 then q else q + 1

def pointed (places : Nat) (keepsPoint : Bool) (scaled : Nat) : Octets :=
  let ds := Octets.ofNat scaled
  let ds := List.replicate (places + 1 - ds.length) '0' ++ ds
  let whole := ds.take (ds.length - places)
  if places = 0 then if keepsPoint then whole ++ ['.'] else whole
  else whole ++ '.' :: ds.drop (ds.length - places)

def Directive.real (d : Directive) (x : Float) : Octets :=
  let places := d.precision.getD 6
  match Binary64.ofFloat x with
  | .nan => d.filled false [] "nan".toList
  | .infinite isNegative => d.filled false (d.signOf isNegative) "inf".toList
  | .finite isNegative significand exponent =>
    let scaled := significand * Nat.pow 10 places
    let units := if 0 ≤ exponent then scaled * Nat.pow 2 exponent.toNat
      else rounded scaled (Nat.pow 2 (-exponent).toNat)
    d.filled true (d.signOf isNegative) (pointed places (d.has '#') units)

structure Template where
  flags : Octets
  /-- Nothing stands for a star. -/
  width : Option Nat
  precision : Option (Option Nat)
  letter : Option Char

/-- The directive behind a percent sign, and what follows its letter. A number that is a star is
none. -/
def templateAt (cs : Octets) : Template × Octets :=
  let flags := cs.takeWhile fun c => "-+ #0'".toList.contains c
  let rest := cs.drop flags.length
  let amount (cs : Octets) : Option Nat × Octets :=
    match cs with
    | '*' :: cs => (none, cs)
    | cs => (some (Octets.number (cs.takeWhile Char.isDigit)), cs.dropWhile Char.isDigit)
  let (width, rest) := amount rest
  let (precision, rest) := match rest with
    | '.' :: rest =>
      let (n, rest) := amount rest
      (some n, rest)
    | rest => (none, rest)
  (⟨flags, width, precision, rest.head?⟩, rest.drop 1)

/-- A directive with its numbers; a negative width stands for filling up behind. -/
def Template.directive (t : Template) (width precision : Int) : Directive :=
  let width := match t.width with
    | some n => (n : Int)
    | none => width
  let precision := match t.precision with
    | some (some n) => some n
    | some none => if precision < 0 then none else some precision.toNat
    | none => none
  ⟨if width < 0 then '-' :: t.flags else t.flags, width.natAbs, precision, t.letter.getD 's'⟩

/-! ## Printing by a format -/

/-- The words that a format has still to take, and what was made of those before them, the last text
first. -/
structure Printing where
  words : List Octets
  texts : List Octets
  complaints : List String
  isStopped : Bool

abbrev Printer := ExceptT String (StateM Printing)

namespace Printer

def put (text : Octets) : Printer Unit :=
  modify fun s => { s with texts := text :: s.texts }

def takeWord : Printer (Option Octets) :=
  modifyGet fun s => (s.words.head?, { s with words := s.words.drop 1 })

def check (word rest : Octets) (isRead isOut : Bool) : Printer Unit :=
  let complain (problem : String) : Printer Unit :=
    modify fun s => { s with complaints := (String.ofList word ++ problem) :: s.complaints }
  if !rest.isEmpty then
    complain (if isRead then ": not completely converted" else ": expected numeric value")
  else if isOut then complain ": Numerical result out of range"
  else return

def quoted? (word : Octets) : Option Nat :=
  match word with
  | '\'' :: rest | '"' :: rest => some ((rest.headD (Char.ofNat 0)).toNat)
  | _ => none

def takeNumber (read : Octets → NumberRead) : Printer Int := do
  match ← takeWord with
  | none => return 0
  | some word =>
    match quoted? word with
    | some n => return n
    | none =>
      let r := read word
      check word r.rest r.isRead r.isOut
      return r.value

def takeReal : Printer Float := do
  match ← takeWord with
  | none => return 0
  | some word =>
    match realAt? word with
    | some (x, rest) =>
      check word rest true false
      return x
    | none =>
      check word word false false
      return 0

def directive (t : Template) (shown : Octets) : Printer Unit := do
  let width ← if t.width.isNone then takeNumber signedAt else pure 0
  let precision ← if t.precision = some none then takeNumber signedAt else pure 0
  let d := t.directive width precision
  match t.letter with
  | none => throw "missing format character"
  | some letter =>
    match letter with
    | 's' => put (d.text ((← takeWord).getD []))
    | 'c' => put (d.character ((← takeWord).getD [] ++ [Char.ofNat 0]))
    | 'b' =>
      let (text, ended) := unescaped ((← takeWord).getD [])
      put (d.text text)
      if ended then modify fun s => { s with isStopped := true }
    | 'd' | 'i' => put (d.integer (← takeNumber signedAt))
    | 'o' | 'u' | 'x' | 'X' => put (d.unsigned (← takeNumber unsignedAt).toNat)
    | 'f' => put (d.real (← takeReal))
    | _ => throw (String.ofList ('%' :: shown) ++ ": invalid directive")

def once : Nat → Octets → Printer Unit
  | 0, _ => pure ()
  | fuel + 1, cs => do
    if (← get).isStopped then return
    match cs with
    | [] => return
    | '\\' :: rest =>
      let (c, rest) := escapeAt rest
      put [c]
      once fuel rest
    | '%' :: '%' :: rest =>
      put ['%']
      once fuel rest
    | '%' :: rest =>
      let (t, behind) := templateAt rest
      directive t (rest.take (rest.length - behind.length))
      once fuel behind
    | c :: rest =>
      put [c]
      once fuel rest

/-- Runs through a format as long as it takes words and there are some left. -/
def again (format : Octets) : Nat → Printer Unit
  | 0 => pure ()
  | fuel + 1 => do
    let before := (← get).words.length
    once (format.length + 1) format
    let s ← get
    if !s.isStopped && !s.words.isEmpty && s.words.length < before then again format fuel

end Printer

def printed (format : Octets) (words : List Octets) : Except String Unit × Printing :=
  (Printer.again format (words.length + 1)).run.run ⟨words, [], [], false⟩

end Diaporama.Rehearsal.Format
