import Diaporama.Rehearsal.Script.Command

/-!
# Shell arithmetic

Integer expressions as they stand between double brackets, on 64 bits. A name stands for the number it
is set to, and assignments set it. What is not chosen by `&&`, `||` and `?` is read but not carried
out.
-/

namespace Diaporama.Rehearsal.Arithmetic

inductive Sign where
  | number (n : Int)
  | name (name : Octets)
  | operator (text : String)
  deriving DecidableEq

def levels : List (List String) :=
  [["*", "/", "%"], ["+", "-"], ["<<", ">>"], ["<", "<=", ">", ">="], ["==", "!="], ["&"], ["^"],
    ["|"]]

def assigning : List String :=
  ["*", "/", "%", "+", "-", "<<", ">>", "&", "^", "|"].map (· ++ "=")

def operators : List String :=
  let all := levels.flatten ++ assigning ++ ["=", "?", ":", "(", ")", "!", "~", "&&", "||"]
  let ofLength (n : Nat) : List String := all.filter (·.length = n)
  ofLength 3 ++ ofLength 2 ++ ofLength 1

def wrap (n : Int) : Int :=
  (Int64.ofInt n).toInt

def largest : Nat := 0x7FFFFFFFFFFFFFFF

/-- The number at the start of a text: decimal, octal behind a zero, or hexadecimal behind `0x`. What
is too large is the largest number. -/
def numeral (cs : Octets) : Nat × Octets :=
  let digits (base : Nat) (cs : Octets) : Nat × Octets :=
    let ds := cs.takeWhile (Octets.isDigitIn base)
    (min (Octets.numberIn base ds) largest, cs.drop ds.length)
  match cs with
  | '0' :: x :: d :: rest =>
    if (x = 'x' || x = 'X') && Octets.isDigitIn 16 d then digits 16 (d :: rest)
    else digits 8 cs
  | '0' :: _ => digits 8 cs
  | cs => digits 10 cs

def signs : Nat → Octets → List Sign
  | 0, _ => []
  | _ + 1, [] => []
  | fuel + 1, c :: cs =>
    if Octets.isBlank c || c = '\n' then signs fuel cs
    else if c.isDigit then
      let (n, rest) := numeral (c :: cs)
      .number n :: signs fuel rest
    else if Word.isNameStart c then
      .name ((c :: cs).takeWhile Word.isNameChar) ::
        signs fuel ((c :: cs).dropWhile Word.isNameChar)
    else match operators.find? fun op => op.toList.isPrefixOf (c :: cs) with
      | some op => .operator op :: signs fuel ((c :: cs).drop op.length)
      | none => [.operator c.toString]

inductive Fault where
  | expression (problem : String)
  | number (text : Octets)

/-- The signs still to be read, and the names with their values, those set last first. -/
structure State where
  signs : List Sign
  value : Octets → Option Octets
  assigned : List (Octets × Int)

abbrev Evaluation := StateT State (Except Fault)

/-- The number that a text in base ten, or with the sign of another base, stands for. -/
def number? (text : Octets) : Option Int :=
  let trimmed := text.dropWhile Octets.isSpace
  let (isNegative, digits) := match trimmed with
    | '-' :: rest => (true, rest)
    | '+' :: rest => (false, rest)
    | rest => (false, rest)
  if trimmed.isEmpty then some 0
  else if !(digits.head?.any Char.isDigit) then none
  else
    let (n, rest) := numeral digits
    if rest.all Octets.isSpace then some (if isNegative then -(n : Int) else n) else none

def lookUp (name : Octets) : Evaluation Int := do
  let s ← get
  match s.assigned.lookup name with
  | some n => return n
  | none =>
    let text := (s.value name).getD []
    match number? text with
    | some n => return n
    | none => throw (.number text)

def assign (name : Octets) (n : Int) : Evaluation Int := do
  modify fun s => { s with assigned := (name, n) :: s.assigned }
  return n

def truth (b : Bool) : Int := if b then 1 else 0

def onBits (f : Int64 → Int64 → Int64) (a b : Int) : Int :=
  (f (Int64.ofInt a) (Int64.ofInt b)).toInt

def operate (op : String) (a b : Int) : Evaluation Int :=
  match op with
  | "|" => return onBits (· ||| ·) a b
  | "^" => return onBits (· ^^^ ·) a b
  | "&" => return onBits (· &&& ·) a b
  | "==" => return truth (a = b)
  | "!=" => return truth (a ≠ b)
  | "<=" => return truth (a ≤ b)
  | ">=" => return truth (b ≤ a)
  | "<" => return truth (a < b)
  | ">" => return truth (b < a)
  | "<<" => return onBits (· <<< ·) a b
  | ">>" => return onBits (· >>> ·) a b
  | "+" => return wrap (a + b)
  | "-" => return wrap (a - b)
  | "*" => return wrap (a * b)
  | "/" => if b = 0 then throw (.expression "division by zero") else return wrap (a.tdiv b)
  | _ => if b = 0 then throw (.expression "division by zero") else return wrap (a.tmod b)

def takeSign : Evaluation (Option Sign) :=
  modifyGet fun s => (s.signs.head?, { s with signs := s.signs.drop 1 })

def peek : Evaluation (Option Sign) := do
  return (← get).signs.head?

def expect (text problem : String) : Evaluation Unit := do
  if (← takeSign) ≠ some (.operator text) then throw (.expression problem)

mutual

def primary : Nat → Bool → Evaluation Int
  | 0, _ => throw (.expression "expecting primary")
  | fuel + 1, acts => do
    match ← takeSign with
    | some (.number n) => return n
    | some (.name name) => if acts then lookUp name else return 0
    | some (.operator "(") =>
      let n ← assignment fuel acts
      expect ")" "expecting ')'"
      return n
    | some (.operator "+") => primary fuel acts
    | some (.operator "-") => return wrap (-(← primary fuel acts))
    | some (.operator "!") => return truth ((← primary fuel acts) = 0)
    | some (.operator "~") => return wrap (-(← primary fuel acts) - 1)
    | _ => throw (.expression "expecting primary")

def binary : Nat → Bool → List (List String) → Evaluation Int
  | 0, _, _ => throw (.expression "expecting primary")
  | fuel + 1, acts, [] => primary fuel acts
  | fuel + 1, acts, level :: tighter => do
    further fuel acts level tighter (← binary fuel acts tighter)

def further : Nat → Bool → List String → List (List String) → Int → Evaluation Int
  | 0, _, _, _, a => pure a
  | fuel + 1, acts, level, tighter, a => do
    match ← peek with
    | some (.operator op) =>
      if level.contains op then
        discard takeSign
        let b ← binary fuel acts tighter
        further fuel acts level tighter (← if acts then operate op a b else pure b)
      else return a
    | _ => return a

def conjunction : Nat → Bool → Evaluation Int
  | 0, _ => throw (.expression "expecting primary")
  | fuel + 1, acts => do
    let a ← binary fuel acts levels.reverse
    if (← peek) = some (.operator "&&") then
      discard takeSign
      let b ← conjunction fuel (acts && a ≠ 0)
      return truth (a ≠ 0 && b ≠ 0)
    else return a

def disjunction : Nat → Bool → Evaluation Int
  | 0, _ => throw (.expression "expecting primary")
  | fuel + 1, acts => do
    let a ← conjunction fuel acts
    if (← peek) = some (.operator "||") then
      discard takeSign
      let b ← disjunction fuel (acts && a = 0)
      return truth (a ≠ 0 || b ≠ 0)
    else return a

def condition : Nat → Bool → Evaluation Int
  | 0, _ => throw (.expression "expecting primary")
  | fuel + 1, acts => do
    let a ← disjunction fuel acts
    if (← peek) = some (.operator "?") then
      discard takeSign
      let b ← assignment fuel (acts && a ≠ 0)
      expect ":" "expecting ':'"
      let c ← condition fuel (acts && a = 0)
      return if a ≠ 0 then b else c
    else return a

def assignment : Nat → Bool → Evaluation Int
  | 0, _ => throw (.expression "expecting primary")
  | fuel + 1, acts => do
    match (← get).signs with
    | .name name :: .operator op :: rest =>
      if op = "=" || assigning.contains op then
        modify fun s => { s with signs := rest }
        let b ← assignment fuel acts
        if !acts then return b
        else if op = "=" then assign name b
        else assign name (← operate (String.ofList op.toList.dropLast) (← lookUp name) b)
      else condition fuel acts
    | _ => condition fuel acts

end

/-- The value of an expression and the names it sets, the last one first; `value` tells what names
are set to before. -/
def evaluate (value : Octets → Option Octets) (text : Octets) :
    Except Fault (Int × List (Octets × Int)) := do
  let all := signs (text.length + 1) text
  let (n, s) ← (assignment (20 * all.length + 20) true).run ⟨all, value, []⟩
  if s.signs.isEmpty then return (n, s.assigned) else throw (.expression "expecting EOF")

end Diaporama.Rehearsal.Arithmetic
