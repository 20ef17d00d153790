import Diaporama.Json.Lexeme
import Diaporama.Style

/-!
# Reading values of a known shape

A reader takes one value of the shape it wants from the front of a JSON text and stops at the first
fault. Notices about the values read so far are kept also when a fault ends the reading.
-/

namespace Diaporama.Json

structure Cursor where
  rest : List UInt8
  notices : List Notice

abbrev Reader := ExceptT Fault (StateM Cursor)

namespace Reader

variable {α : Type}

def fail (cause : SyntaxFault) : Reader α :=
  throw (.malformed cause)

def ofExcept : Except SyntaxFault α → Reader α
  | .ok a => pure a
  | .error cause => fail cause

def rest : Reader (List UInt8) := do
  return (← get).rest

def setRest (bs : List UInt8) : Reader Unit :=
  modify fun cursor => { cursor with rest := bs }

def notice (notices : List Notice) : Reader Unit :=
  modify fun cursor => { cursor with notices := cursor.notices ++ notices }

def peek : Reader (Option Char) := do
  let bs := dropSpace (← rest)
  setRest bs
  return bs.head?.map Char.ofUInt8

def skip : Reader Unit := do
  setRest ((← rest).drop 1)

def scan (f : List UInt8 → Except SyntaxFault (Scanned α)) : Reader α := do
  let (a, bs) ← ofExcept (f (← rest))
  setRest bs
  return a

def skipping (f : List UInt8 → Except SyntaxFault (List UInt8)) : Reader Unit := do
  setRest (← ofExcept (f (← rest)))

def word (cs : List Char) : Reader Unit :=
  skipping (scanWord cs)

def number (c : Char) : Reader Number := do
  if c = '-' then skip
  ofExcept (← scan (scanNumber (c == '-'))).toNumber

def Number.found : Number → Found
  | .natural n => .integer n
  | .negative n => .integer (Int.negSucc n)
  | .real x => .real x

/-- The fault of a value that starts with `c` and is not what was asked for. What can be named is
read to be named. -/
def refuse (expected : String) (c : Char) : Reader α := do
  let wrong (found : Found) : Reader α := throw (.wrongType found expected)
  match c with
  | 'n' => do
    skip
    word ['u', 'l', 'l']
    wrong .null
  | 't' => do
    skip
    word ['r', 'u', 'e']
    wrong (.boolean true)
  | 'f' => do
    skip
    word ['a', 'l', 's', 'e']
    wrong (.boolean false)
  | '"' => do
    skip
    wrong (.string (← scan scanString))
  | '[' => wrong .sequence
  | '{' => wrong .map
  | c =>
    if c = '-' || c.isDigit then do
      wrong (Number.found (← number c))
    else fail .noValue

def start : Reader Char := do
  match ← peek with
  | some c => return c
  | none => fail .endInValue

def text (expected : String) : Reader String := do
  let c ← start
  if c = '"' then
    skip
    scan scanString
  else refuse expected c

def numberOf (expected : String) : Reader Number := do
  let c ← start
  if c = '-' || c.isDigit then number c else refuse expected c

def real : Reader Float := do
  match ← numberOf "f64" with
  | .natural n => return n.toUInt64.toFloat
  | .negative n => return -(n + 1).toUInt64.toFloat
  | .real x => return x

def below (limit : Nat) (expected : String) : Reader Nat := do
  match ← numberOf expected with
  | .natural n =>
    if n < limit then return n else throw (.outOfRange (.integer n) expected)
  | .negative n => throw (.outOfRange (.integer (Int.negSucc n)) expected)
  | .real x => throw (.wrongType (.real x) expected)

def octet : Reader UInt8 := do
  return (← below UInt8.size "u8").toUInt8

def size32 : Reader UInt32 := do
  return (← below UInt32.size "u32").toUInt32

def optional (r : Reader α) : Reader (Option α) := do
  if (← peek) = some 'n' then
    skip
    word ['u', 'l', 'l']
    return none
  else return some (← r)

def unit : Reader Unit := do
  let c ← start
  if c = 'n' then
    skip
    word ['u', 'l', 'l']
  else refuse "unit" c

/-- Whether a list goes on with an item; `first` tells that it has none yet. -/
def hasItem (first : Bool) : Reader Bool := do
  match ← peek with
  | none => fail .endInList
  | some ']' => return false
  | some c =>
    if first then return true
    else if c = ',' then
      skip
      match ← peek with
      | some ']' => fail .trailingComma
      | some _ => return true
      | none => fail .endInValue
    else fail .noCommaOrBracket

def closeList : Reader Unit := do
  match ← peek with
  | some ']' => skip
  | some ',' =>
    skip
    if (← peek) = some ']' then fail .trailingComma else fail .trailingCharacters
  | some _ => fail .trailingCharacters
  | none => fail .endInList

def items (r : Reader α) (first : Bool) : Nat → Reader (List α)
  | 0 => fail .endInList
  | limit + 1 => do
    if ← hasItem first then
      let a ← r
      return a :: (← items r false limit)
    else return []

def list (r : Reader α) : Reader (List α) := do
  let c ← start
  if c = '[' then
    skip
    let found ← items r true ((← rest).length + 1)
    closeList
    return found
  else refuse "a sequence" c

def hasMember (first : Bool) : Reader Bool := do
  match ← peek with
  | none => fail .endInObject
  | some '}' => return false
  | some c =>
    if first then
      if c = '"' then return true else fail .keyNoString
    else if c = ',' then
      skip
      match ← peek with
      | some '"' => return true
      | some '}' => fail .trailingComma
      | some _ => fail .keyNoString
      | none => fail .endInValue
    else fail .noCommaOrBrace

def key : Reader String := do
  skip
  scan scanString

def colon : Reader Unit := do
  match ← peek with
  | some ':' => skip
  | some _ => fail .noColon
  | none => fail .endInObject

/-- One of several names: a string, or the only key of an object whose value is `null`. -/
def variant (names : List String) (ofName? : String → Option α) : Reader α := do
  let choose (name : String) : Reader α :=
    match ofName? name with
    | some a => pure a
    | none => throw (.unknownVariant name names)
  let c ← start
  if c = '"' then
    choose (← key)
  else if c = '{' then
    skip
    if ← hasMember true then
      let a ← choose (← key)
      colon
      unit
      match ← peek with
      | some '}' =>
        skip
        return a
      | some _ => fail .noValue
      | none => fail .endInObject
    else fail .noValue
  else fail .noValue

def whole (r : Reader α) : Reader α := do
  let a ← r
  match ← peek with
  | none => return a
  | some _ => fail .trailingCharacters

end Reader

/-- What reading a text came to, and the notices on the way. -/
structure Reading (α : Type) where
  notices : List Notice
  result : Except Fault α

def read {α : Type} (r : Reader α) (text : ByteArray) : Reading α :=
  let (result, cursor) := (Reader.whole r).run.run ⟨text.toList, []⟩
  ⟨cursor.notices, result⟩

end Diaporama.Json
