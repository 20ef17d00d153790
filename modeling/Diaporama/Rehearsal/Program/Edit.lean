import Diaporama.Rehearsal.Program.Lines
import Diaporama.Rehearsal.Regex

/-!
# Editing lines

A script is a sequence of commands that are run for each line of the input. Each one may be bound to
some lines; it changes the line that is held or prints it. The line is printed when they are through.
-/

namespace Diaporama.Rehearsal.Edit

/-! ## Scripts -/

inductive Address where
  | line (n : Nat)
  | last
  | lineWith (r : Regex)

inductive Piece where
  | char (c : Char)
  | group (n : Nat)

inductive Verb where
  | substitute (r : Regex) (pieces : List Piece) (isGlobal prints : Bool)
  | delete
  | print
  | number
  | quit

structure Command where
  start : Option Address
  stop : Option Address
  isInverted : Bool
  verb : Verb
  /-- The range of the command has started and not ended yet. -/
  isOpen : Bool

/-! ## Reading -/

abbrev Reading := StateT Octets (Except String)

namespace Reading

def takeIf (p : Char → Bool) : Reading (Option Char) := do
  match ← get with
  | c :: rest =>
    if p c then
      set rest
      return some c
    else return none
  | [] => return none

def skip (p : Char → Bool) : Reading Unit :=
  modify (·.dropWhile p)

/-- The text up to a mark, which stands for itself behind a backslash. -/
def upTo (mark : Char) : Nat → Reading Octets
  | 0 => throw "unterminated command"
  | fuel + 1 => do
    match ← get with
    | [] => throw "unterminated command"
    | '\\' :: c :: rest =>
      set rest
      let others ← upTo mark fuel
      return if c = mark then c :: others else '\\' :: c :: others
    | c :: rest =>
      set rest
      if c = mark then return [] else return c :: (← upTo mark fuel)

def delimited (mark : Char) : Reading Octets := do
  upTo mark ((← get).length + 1)

def address? (isExtended : Bool) : Reading (Option Address) := do
  match ← get with
  | '$' :: rest =>
    set rest
    return some .last
  | '/' :: rest =>
    set rest
    return some (.lineWith (← Regex.ofText isExtended false (← delimited '/')))
  | cs =>
    let digits := cs.takeWhile Char.isDigit
    set (cs.drop digits.length)
    return (Octets.number? digits).map .line

def pieces : Octets → List Piece
  | '\\' :: c :: rest =>
    (if c.isDigit then .group (c.toNat - 48)
      else .char (if c = 'n' then '\n' else if c = 't' then '\t' else c)) :: pieces rest
  | '&' :: rest => .group 0 :: pieces rest
  | c :: rest => .char c :: pieces rest
  | [] => []

def verb (isExtended : Bool) : Reading Verb := do
  match ← takeIf fun _ => true with
  | some 'd' => return .delete
  | some 'p' => return .print
  | some '=' => return .number
  | some 'q' => return .quit
  | some 's' =>
    match ← takeIf fun _ => true with
    | none => throw "unterminated command"
    | some mark =>
      let pattern ← delimited mark
      let text ← delimited mark
      let flags := (← get).takeWhile "gpIi".toList.contains
      skip "gpIi".toList.contains
      let ignoresCase := flags.contains 'I' || flags.contains 'i'
      return .substitute (← Regex.ofText isExtended ignoresCase pattern) (pieces text)
        (flags.contains 'g') (flags.contains 'p')
  | some c => throw ("unknown command: '" ++ c.toString ++ "'")
  | none => throw "missing command"

def commands (isExtended : Bool) : Nat → Reading (List Command)
  | 0 => pure []
  | fuel + 1 => do
    skip fun c => Octets.isSpace c || c = ';'
    if (← get).isEmpty then return []
    let start ← address? isExtended
    let stop ← if (← takeIf (· = ',')).isSome then address? isExtended else pure none
    skip Octets.isBlank
    let isInverted := (← takeIf (· = '!')).isSome
    let verb ← verb isExtended
    skip Octets.isBlank
    let isOver := ((← get).head?).all fun c => c = ';' || c = '\n'
    if !isOver then throw "extra characters after command"
    return ⟨start, stop, isInverted, verb, false⟩ :: (← commands isExtended fuel)

end Reading

/-! ## Running -/

structure Held where
  space : Octets
  number : Nat
  isLast : Bool
  /-- What stands behind a line that is printed. -/
  ending : Octets
  /-- What was printed, the last text first. -/
  output : List Octets
  isDeleted : Bool
  quits : Bool

def Address.isHere (a : Address) (h : Held) : Bool :=
  match a with
  | .line n => h.number = n
  | .last => h.isLast
  | .lineWith r => (r.find? h.space.toArray 0).isSome

def Command.selects (c : Command) (h : Held) : Bool × Bool :=
  match c.start, c.stop with
  | none, _ => (true, false)
  | some start, none => (start.isHere h, false)
  | some start, some stop =>
    let isOver := match stop with
      | .line n => n ≤ h.number
      | .last => h.isLast
      | .lineWith _ => c.isOpen && stop.isHere h
    let isHere := c.isOpen || start.isHere h
    (isHere, isHere && !isOver)

def replacement (s : Array Char) (m : Match) (ps : List Piece) : Octets :=
  ps.flatMap fun p =>
    match p with
    | .char c => [c]
    | .group n => m.group s n

/-- A text from a place on with matches replaced; `isBehind` tells that a match ended there, behind which an
empty one does not count. -/
def replaced (r : Regex) (ps : List Piece) (isGlobal : Bool) (s : Array Char) : Nat → Nat → Bool → Octets
  | 0, _, _ => []
  | fuel + 1, i, isBehind =>
    let rest (j : Nat) : Octets := (s.extract j s.size).toList
    match r.find? s i with
    | none => rest i
    | some m =>
      let next := (s[m.stop]?).toList
      if isBehind && m.stop = i then next ++ replaced r ps isGlobal s fuel (i + 1) false
      else
        let shown := (s.extract i m.start).toList ++ replacement s m ps
        if !isGlobal then shown ++ rest m.stop
        else if m.stop = m.start then
          shown ++ next ++ replaced r ps isGlobal s fuel (m.stop + 1) false
        else shown ++ replaced r ps isGlobal s fuel m.stop true

def Held.print (h : Held) (text : Octets) : Held :=
  { h with output := (text ++ h.ending) :: h.output }

def Held.perform (h : Held) (v : Verb) : Held :=
  match v with
  | .delete => { h with isDeleted := true }
  | .print => h.print h.space
  | .number => { h with output := (Octets.ofNat h.number ++ ['\n']) :: h.output }
  | .quit => { h with quits := true }
  | .substitute r ps isGlobal prints =>
    let s := h.space.toArray
    if (r.find? s 0).isNone then h
    else
      let h := { h with space := replaced r ps isGlobal s (2 * s.size + 2) 0 false }
      if prints then h.print h.space else h

/-- Runs the commands for a line, and gives them as they are for the next one. -/
def runCommands : List Command → Held → List Command × Held
  | [], h => ([], h)
  | c :: cs, h =>
    let (isHere, isOpen) := c.selects h
    let h := if isHere != c.isInverted then h.perform c.verb else h
    let (cs, h) := if h.isDeleted || h.quits then (cs, h) else runCommands cs h
    ({ c with isOpen } :: cs, h)

/-- What a script makes of lines, of which `number` have been read before; the last one may lack its
end. -/
def edited (isQuiet lacksEnd : Bool) : List Command → Nat → List Octets → Octets
  | _, _, [] => []
  | cs, number, line :: lines =>
    let ending := if lines.isEmpty && lacksEnd then [] else ['\n']
    let (cs, h) := runCommands cs ⟨line, number + 1, lines.isEmpty, ending, [], false, false⟩
    let h := if isQuiet || h.isDeleted then h else h.print h.space
    h.output.reverse.flatten ++ if h.quits then [] else edited isQuiet lacksEnd cs (number + 1) lines

end Diaporama.Rehearsal.Edit

namespace Diaporama.Rehearsal.Program

open Tool

def sed : Program := fun _ words => do
  let o ← options "nErs" "e" 1 words
  let (script, files) ← match o.values 'e', o.operands with
    | [], [] => abort 1 "no script"
    | [], script :: files => pure (script, files)
    | scripts, files => pure (['\n'].intercalate scripts, files)
  match (Edit.Reading.commands (o.has 'E' || o.has 'r') (script.length + 1)).run script with
  | .error problem => abort 1 ("-e expression #1: " ++ problem)
  | .ok (commands, _) =>
    let mut text : Octets := []
    for file in if files.isEmpty then [['-']] else files do
      match ← readOperand file with
      | .ok content => text := text ++ content
      | .error fault => fail 2 ("can't read " ++ String.ofList file ++ ": " ++ fault.description)
    print (Edit.edited (o.has 'n') (text.getLast?.any (· ≠ '\n')) commands 0 (Octets.lines text))

end Diaporama.Rehearsal.Program
