import Diaporama.Rehearsal.Format
import Diaporama.Rehearsal.System.Process

/-!
# Tests

The questions that `test` answers: about texts, numbers and files, negated and joined by `-a` and
`-o`. A question it does not understand is a complaint.
-/

namespace Diaporama.Rehearsal.Test

inductive Operator where
  | unary
  | binary
  | negation
  | both
  | either
  | opening
  | closing
  deriving DecidableEq

def operator? (word : Octets) : Option Operator :=
  match String.ofList word with
  | "-r" | "-w" | "-x" | "-e" | "-f" | "-d" | "-p" | "-s" | "-t" | "-z" | "-n" | "-h" | "-L" =>
    some .unary
  | "=" | "!=" | "<" | ">" | "-eq" | "-ne" | "-ge" | "-gt" | "-le" | "-lt" => some .binary
  | "!" => some .negation
  | "-a" => some .both
  | "-o" => some .either
  | "(" => some .opening
  | ")" => some .closing
  | _ => none

def isBinary (word : Octets) : Bool :=
  operator? word = some .binary

/-- The operator at the start of words, unless it stands where an operand is meant. -/
def operatorAt? (words : List Octets) : Option Operator :=
  match words with
  | [] => none
  | word :: rest =>
    match operator? word, rest with
    | some .unary, [] => none
    | some .unary, [_] => some .unary
    | some .unary, second :: _ => if isBinary second then none else some .unary
    | some .opening, [] => none
    | found, _ => found

def unary (p : Process) (sign : Octets) (word : Octets) : Bool :=
  let node? := p.nodeAt? word
  match String.ofList sign with
  | "-n" => !word.isEmpty
  | "-z" => word.isEmpty
  | "-e" | "-r" | "-w" => node?.isSome
  | "-f" => node?.any Node.isFile
  | "-d" => node?.any Node.isDirectory
  | "-s" => node?.any fun n => 0 < n.size
  | "-x" => node?.any Node.isExecutable
  | "-h" | "-L" =>
    (p.volume.findEntry? p.directory word).any fun id => (p.volume.node id).isLink
  | "-p" => node?.any fun n => (n.body matches .pipe _ _)
  | _ => false

def number (word : Octets) : Except String Int :=
  let r := Format.integerAt (some 10) (-(Format.largestSigned : Int) - 1) Format.largestSigned word
  if r.isRead && !r.isOut && r.rest.all Octets.isSpace then .ok r.value
  else .error ("Illegal number: " ++ String.ofList word)

def binary (a sign b : Octets) : Except String Bool := do
  match String.ofList sign with
  | "=" => return a = b
  | "!=" => return a ≠ b
  | "<" => return decide (a < b)
  | ">" => return decide (b < a)
  | "-eq" => return (← number a) = (← number b)
  | "-ne" => return (← number a) ≠ (← number b)
  | "-lt" => return (← number a) < (← number b)
  | "-le" => return (← number a) ≤ (← number b)
  | "-gt" => return (← number b) < (← number a)
  | _ => return (← number b) ≤ (← number a)

/-- The words from the one that is looked at on, and a complaint if something is wrong. -/
abbrev Answering := StateT (List Octets) (Except String)

def advance : Answering Unit :=
  modify (·.drop 1)

def ahead : Answering (Option Operator) := do
  return operatorAt? ((← get).drop 1)

mutual

/-- Questions of which one has to hold; `op` is what the first word is seen as. -/
def anyOf (p : Process) : Nat → Option Operator → Answering Bool
  | 0, _ => throw "argument expected"
  | fuel + 1, op => do
    let holds ← allOf p fuel op
    if (← ahead) = some .either then
      modify (·.drop 2)
      let other ← anyOf p fuel (operatorAt? (← get))
      return holds || other
    else return holds

def allOf (p : Process) : Nat → Option Operator → Answering Bool
  | 0, _ => throw "argument expected"
  | fuel + 1, op => do
    let holds ← negated p fuel op
    if (← ahead) = some .both then
      modify (·.drop 2)
      let other ← allOf p fuel (operatorAt? (← get))
      return holds && other
    else return holds

def negated (p : Process) : Nat → Option Operator → Answering Bool
  | 0, _ => throw "argument expected"
  | fuel + 1, op => do
    if op = some .negation then
      let next ← ahead
      if 1 < (← get).length then
        advance
        return !(← negated p fuel next)
      else return true
    else single p fuel op

def single (p : Process) : Nat → Option Operator → Answering Bool
  | 0, _ => throw "argument expected"
  | fuel + 1, op => do
    match ← get with
    | [] => return false
    | word :: rest =>
      match op with
      | some .opening =>
        advance
        let inside := operatorAt? rest
        if inside = some .closing then return false
        let holds ← anyOf p fuel inside
        advance
        if operatorAt? (← get) ≠ some .closing then throw "closing paren expected"
        return holds
      | some .unary =>
        advance
        match rest with
        | operand :: _ => return unary p word operand
        | [] => throw (String.ofList word ++ ": argument expected")
      | _ =>
        match rest with
        | sign :: more =>
          if operatorAt? rest = some .binary then
            modify (·.drop 2)
            match more with
            | b :: _ => binary word sign b
            | [] => throw (String.ofList sign ++ ": argument expected")
          else return !word.isEmpty
        | [] => return !word.isEmpty

end

/-- The answer to words whose first one is seen as `op`; at most one word may be left over. -/
def answerAs (p : Process) (op : Option Operator) (words : List Octets) : Except String Bool := do
  let (holds, rest) ← (anyOf p (4 * words.length + 4) op).run words
  match rest with
  | word :: _ :: _ =>
    throw (if word.isEmpty then "unexpected operator" else String.ofList word ++ ": unexpected operator")
  | _ => return holds

/-- The answer to a question. Up to four words are read as a whole, so that an operator among them
may be an operand. -/
def answer (p : Process) (words : List Octets) : Except String Bool :=
  match words with
  | [] => .ok false
  | [a, sign, b] =>
    if isBinary sign then answerAs p none words
    else if a = ['('] && b = [')'] then answerAs p (operatorAt? [sign]) [sign]
    else if a = ['!'] then (answer p [sign, b]).map (!·)
    else answerAs p (operatorAt? words) words
  | [a, b, c, d] =>
    if a = ['('] && d = [')'] then answerAs p (operatorAt? [b, c]) [b, c]
    else if a = ['!'] then (answer p [b, c, d]).map (!·)
    else answerAs p (operatorAt? words) words
  | words => answerAs p (operatorAt? words) words

end Diaporama.Rehearsal.Test
