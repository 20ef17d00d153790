/-!
# Texts of a script

A script and what it prints need not be UTF-8, so its texts hold one character for each byte.
-/

namespace Diaporama.Rehearsal

/-- Bytes as characters below 256. -/
abbrev Octets := List Char

def total (ns : List Nat) : Nat :=
  ns.foldl (· + ·) 0

namespace Octets

def ofBytes (b : ByteArray) : Octets :=
  b.toList.map Char.ofUInt8

def toBytes (cs : Octets) : ByteArray :=
  (cs.map fun c => c.toNat.toUInt8).toByteArray

def ofString (s : String) : Octets :=
  ofBytes s.toUTF8

def ofNat (n : Nat) : Octets :=
  (toString n).toList

def ofInt (n : Int) : Octets :=
  (toString n).toList

def order : Octets → Octets → Ordering
  | [], [] => .eq
  | [], _ => .lt
  | _, [] => .gt
  | a :: as, b :: bs => (compare a.toNat b.toNat).then (order as bs)

def precedes (a b : Octets) : Bool :=
  order a b ≠ .gt

def isBlank (c : Char) : Bool :=
  c = ' ' || c = '\t'

def isSpace (c : Char) : Bool :=
  c = ' ' || ('\t' ≤ c && c ≤ '\r')

def isPunctuation (c : Char) : Bool :=
  '!' ≤ c && c ≤ '~' && !c.isAlphanum

/-- Whether a character belongs to the class with a name; the names are those of brackets, and one for the
characters of words. -/
def isInClass (name : String) (c : Char) : Bool :=
  match name with
  | "alpha" => c.isAlpha
  | "digit" => c.isDigit
  | "alnum" => c.isAlphanum
  | "upper" => c.isUpper
  | "lower" => c.isLower
  | "space" => isSpace c
  | "blank" => isBlank c
  | "punct" => isPunctuation c
  | "print" => ' ' ≤ c && c ≤ '~'
  | "graph" => '!' ≤ c && c ≤ '~'
  | "cntrl" => c < ' ' || c.toNat = 127
  | "xdigit" => c.isDigit || ('a' ≤ c.toLower && c.toLower ≤ 'f')
  | "word" => c.isAlphanum || c = '_'
  | _ => false

def classNames : List String :=
  ["alpha", "digit", "alnum", "upper", "lower", "space", "blank", "punct", "print", "graph", "cntrl",
    "xdigit"]

def split (mark : Char) : Octets → List Octets
  | [] => [[]]
  | c :: cs =>
    if c = mark then [] :: split mark cs
    else match split mark cs with
      | part :: parts => (c :: part) :: parts
      | [] => [[c]]

/-- The parts of a text that end with `mark`, which may be missing at the end of the last one. -/
def closed (mark : Char) (cs : Octets) : List Octets :=
  let parts := split mark cs
  if parts.getLast? = some [] then parts.dropLast else parts

def lines (cs : Octets) : List Octets :=
  closed '\n' cs

def ofLines (lines : List Octets) : Octets :=
  lines.flatMap (· ++ ['\n'])

def words (cs : Octets) : List Octets :=
  let step (c : Char) (found : List Octets × Octets) : List Octets × Octets :=
    if isSpace c then (if found.2.isEmpty then found.1 else found.2 :: found.1, [])
    else (found.1, c :: found.2)
  let (whole, first) := cs.foldr step ([], [])
  if first.isEmpty then whole else first :: whole

def joined (separator : Octets) (parts : List Octets) : Octets :=
  separator.intercalate parts

def dropEndWhile (p : Char → Bool) (cs : Octets) : Octets :=
  (cs.reverse.dropWhile p).reverse

def padStart (width : Nat) (cs : Octets) : Octets :=
  List.replicate (width - cs.length) ' ' ++ cs

def position? (part : Octets) (cs : Octets) : Option Nat :=
  (List.range (cs.length + 1)).find? fun n => part.isPrefixOf (cs.drop n)

def isPart (part cs : Octets) : Bool :=
  (position? part cs).isSome

def number (cs : Octets) : Nat :=
  cs.foldl (fun n c => 10 * n + (c.toNat - 48)) 0

def number? (cs : Octets) : Option Nat :=
  if !cs.isEmpty && cs.all Char.isDigit then some (number cs) else none

def integer? (cs : Octets) : Option Int :=
  match cs with
  | '-' :: ds => (number? ds).map fun n => -(n : Int)
  | ds => (number? ds).map Int.ofNat

def digitValue (c : Char) : Nat :=
  if c.isDigit then c.toNat - 48 else if c.isAlpha then c.toLower.toNat - 87 else 36

def isDigitIn (base : Nat) (c : Char) : Bool :=
  digitValue c < base

def numberIn (base : Nat) (cs : Octets) : Nat :=
  cs.foldl (fun n c => base * n + digitValue c) 0

def ofNatIn (base : Nat) (n : Nat) : Octets :=
  Nat.toDigits base n

end Octets

end Diaporama.Rehearsal
