import Diaporama.Rehearsal.Script.Field
import Diaporama.Rehearsal.Script.Reader
import Diaporama.Rehearsal.Format
import Diaporama.Rehearsal.System.Process

/-!
# Sessions

A session is a shell at work: the process it is, its arguments, names, functions and traps, and
whether it skips what comes next. What runs in a session may be stopped by a mistake, by leaving, or
by a signal.
-/

namespace Diaporama.Rehearsal

structure Variable where
  value : Option Octets
  isExported : Bool
  isReadOnly : Bool

inductive Skip where
  | nothing
  /-- The rest of this many loops. -/
  | breaking (loops : Nat)
  /-- The rest of a round of the last of this many loops, and all rounds of those inside it. -/
  | continuing (loops : Nat)
  /-- The rest of a function or a file. -/
  | returning
  deriving DecidableEq

inductive Stop where
  | mistake
  /-- Its work is done, or a failure ends it. -/
  | ending
  | leaving
  /-- The process has ended already, and what it was to do at its end is not done. -/
  | gone (status : ExitStatus)
  deriving DecidableEq

@[match_pattern]
def Stop.killed (signal : Nat) : Stop :=
  .gone (.signalled signal)

structure Session where
  process : Process
  /-- The name under which the shell complains. -/
  name : Octets
  /-- The command of the shell that is running. -/
  running : Option Octets
  /-- The line of the command that is running. -/
  line : Nat
  /-- The line up to which the text was read. -/
  readLine : Nat
  arguments : List Octets
  bindings : List (Octets × Variable)
  /-- The values to go back to behind each function that is running. -/
  frames : List (List (Octets × Option Variable))
  functions : List (Octets × Command)
  documents : Array Word
  /-- What is run when a signal arrives; at zero, what is run at the end. -/
  traps : List (Nat × Octets)
  /-- Trapped signals that have arrived. -/
  arrived : List Nat
  switches : List Char
  status : Nat
  /-- The status of the last command that was run to expand a word. -/
  innerStatus : Nat
  /-- The status to leave with, set aside while a trap runs. -/
  keptStatus : Option Nat
  /-- The number that `$$` stands for. -/
  number : Nat
  /-- The commands that ran in the background, the last one first. -/
  jobs : List (Nat × ExitStatus)
  skip : Skip
  loops : Nat
  functionDepth : Nat
  /-- The path of the current directory as it was reached. -/
  path : Octets
  /-- What a command of the shell has written, the last text first. -/
  pending : List Octets

abbrev Act := ExceptT Stop (StateM Session)

namespace Session

def signalNames : List (Nat × String) :=
  (List.range 32).filterMap fun n =>
    if n = 0 then some (0, "EXIT")
    else (ExitStatus.signalName? n).map fun name => (n, String.ofList (name.toList.drop 3))

def signalName (n : Nat) : String :=
  match signalNames.lookup n with
  | some name => name
  | none =>
    if n = 34 then "RTMIN"
    else if n = 64 then "RTMAX"
    else if 34 < n && n ≤ 49 then "RTMIN+" ++ toString (n - 34)
    else if 49 < n && n < 64 then "RTMAX-" ++ toString (64 - n)
    else toString n

def lastSignal : Nat := 64

def signal? (least : Nat) (text : Octets) : Option Nat :=
  match Octets.number? text with
  | some n => if n ≤ lastSignal then some n else none
  | none =>
    let upper := String.ofList (text.map Char.toUpper)
    (List.range (lastSignal + 1)).find? fun n => least ≤ n && signalName n = upper

/-- Signals that do nothing to a process without a trap, or only stop it for a while. -/
def isHarmless (signal : Nat) : Bool :=
  17 ≤ signal && signal ≤ 23 && signal ≠ 19 || signal = 28

/-- Signals that cannot be trapped. -/
def isFinal (signal : Nat) : Bool :=
  signal = 9 || signal = 19

def signalDescription (signal : Nat) : String :=
  let all : List (Nat × String) := [(1, "Hangup"), (2, "Interrupt"), (3, "Quit"), (4, "Illegal instruction"),
    (5, "Trace/breakpoint trap"), (6, "Aborted"), (7, "Bus error"), (8, "Floating point exception"),
    (9, "Killed"), (10, "User defined signal 1"), (11, "Segmentation fault"),
    (12, "User defined signal 2"), (13, "Broken pipe"), (14, "Alarm clock"), (15, "Terminated"),
    (16, "Stack fault"), (24, "CPU time limit exceeded"), (25, "File size limit exceeded"),
    (26, "Virtual timer expired"), (27, "Profiling timer expired"), (29, "I/O possible"),
    (30, "Power failure"), (31, "Bad system call")]
  match all.lookup signal with
  | some text => text
  | none => if 34 ≤ signal then "Real-time signal " ++ toString (signal - 34)
    else "Unknown signal " ++ toString signal

def has (s : Session) (switch : Char) : Bool :=
  s.switches.contains switch

/-! ## Variables -/

def value? (s : Session) (name : Octets) : Option Octets :=
  (s.bindings.lookup name).bind (·.value)

def value (s : Session) (name : String) : Octets :=
  (s.value? name.toList).getD []

def putVariable (s : Session) (name : Octets) (v : Option Variable) : Session :=
  match v with
  | none => { s with bindings := s.bindings.filter fun entry => entry.1 ≠ name }
  | some v =>
    if s.bindings.any fun entry => entry.1 = name then
      { s with bindings := s.bindings.map fun entry => if entry.1 = name then (name, v) else entry }
    else { s with bindings := s.bindings ++ [(name, v)] }

def setValue (s : Session) (name value : Octets) : Session :=
  let before := (s.bindings.lookup name).getD ⟨none, s.has 'a', false⟩
  s.putVariable name (some { before with value := some value })

def isReadOnly (s : Session) (name : Octets) : Bool :=
  (s.bindings.lookup name).any (·.isReadOnly)

def exported (s : Session) : List (Octets × Octets) :=
  s.bindings.filterMap fun (name, v) =>
    if v.isExported then v.value.map fun value => (name, value) else none

def separators (s : Session) : Octets :=
  (s.value? "IFS".toList).getD " \t\n".toList

def joint (s : Session) : Octets :=
  match s.value? "IFS".toList with
  | some separators => separators.take 1
  | none => [' ']

def switchLetters : List (Char × String) :=
  [('e', "errexit"), ('f', "noglob"), ('I', "ignoreeof"), ('i', "interactive"), ('m', "monitor"),
    ('n', "noexec"), ('s', "stdin"), ('x', "xtrace"), ('v', "verbose"), ('V', "vi"),
    ('E', "emacs"), ('C', "noclobber"), ('a', "allexport"), ('b', "notify"), ('u', "nounset"),
    ('\x00', "nolog"), ('\x01', "debug")]

def parameter? (s : Session) (name : Octets) : Option Octets :=
  match name with
  | ['@'] | ['*'] => some (Octets.joined s.joint s.arguments)
  | ['#'] => some (Octets.ofNat s.arguments.length)
  | ['?'] => some (Octets.ofNat s.status)
  | ['$'] => some (Octets.ofNat s.number)
  | ['!'] => s.jobs.head?.map fun job => Octets.ofNat job.1
  | ['-'] => some ((switchLetters.reverse.map (·.1)).filter fun c => s.has c && ' ' < c)
  | ['0'] => some s.name
  | name =>
    if name.all Char.isDigit then
      if Octets.number name = 0 then some s.name else s.arguments[Octets.number name - 1]?
    else s.value? name

/-! ## Parts that run on their own -/

def ignoredByTraps (s : Session) : List Nat :=
  s.traps.filterMap fun (signal, action) => if action.isEmpty && signal ≠ 0 then some signal else none

/-- A copy of a session in a process of its own; only traps that ignore a signal are handed down. -/
def forked (s : Session) : Session :=
  { s with
    process := s.process.fork
    traps := s.traps.filter fun entry => entry.2.isEmpty && entry.1 ≠ 0
    arrived := []
    jobs := []
    keptStatus := none
    pending := [] }

def resume (s : Session) (system : System) : Session :=
  { s with process := s.process.resume system }

end Session

namespace Act

open Session

def writeTo (descriptor : Nat) (text : Octets) : Act Unit :=
  modify fun s =>
    match s.process.write descriptor text with
    | .ok p => { s with process := p }
    | .error _ => s

/-- A message of the shell, behind its name, the line and the command that is running. -/
def warn (message : String) : Act Unit := do
  let s ← get
  let command := match s.running with
    | some name => name ++ ": ".toList
    | none => []
  writeTo 2 (s.name ++ ": ".toList ++ Octets.ofNat s.line ++ ": ".toList ++ command ++
    message.toList ++ ['\n'])

/-- Complains and stops the shell, or the command that is running if it is an ordinary one. -/
def fail {α : Type} (message : String) : Act α := do
  modify fun s => { s with status := 2 }
  warn message
  throw .mistake

def failReading {α : Type} (message : String) : Act α := do
  modify fun s => { s with line := s.readLine }
  fail message

def setStatus (status : Nat) : Act Unit :=
  modify fun s => { s with status }

def print (text : Octets) : Act Unit :=
  modify fun s => { s with pending := text :: s.pending }

def assign (name value : Octets) : Act Unit := do
  if (← get).isReadOnly name then fail (String.ofList name ++ ": is read only")
  else modify fun s => s.setValue name value

def unset (name : Octets) : Act Unit := do
  if (← get).isReadOnly name then fail (String.ofList name ++ ": is read only")
  else modify fun s =>
    match s.bindings.lookup name with
    | some _ => s.putVariable name none
    | none => s

def receiveSignals : Act Unit := do
  let s ← get
  let own := s.process.number
  let (mine, others) := s.process.system.signals.partition fun g => g.receiver = own
  if mine.isEmpty then return
  set { s with process.system.signals := others }
  for g in mine do
    let s ← get
    match s.traps.lookup g.number with
    | some action =>
      if isFinal g.number then throw (.killed g.number)
      else if !action.isEmpty && !s.arrived.contains g.number then
        set { s with arrived := s.arrived ++ [g.number] }
    | none =>
      if g.number ≠ 0 && !isHarmless g.number && !(s.process.ignored.contains g.number && !isFinal g.number)
      then throw (.killed g.number)

def number (text : Octets) : Act Nat := do
  let r := Format.integerAt (some 10) 0 0x7FFFFFFF text
  if r.isRead && !r.isOut && r.rest.all Octets.isSpace then return r.value.toNat
  else fail ("Illegal number: " ++ String.ofList text)

/-- The options of a command of the shell among its words, and its operands. Letters with a colon
behind them take a value. -/
def options (allowed : String) : Nat → List Octets → Act (List (Char × Octets) × List Octets)
  | 0, words => pure ([], words)
  | fuel + 1, words => do
    let takesValue (c : Char) : Bool := Octets.isPart [c, ':'] allowed.toList
    match words with
    | ['-', '-'] :: rest => return ([], rest)
    | ('-' :: c :: cs) :: rest =>
      if c = ':' || !allowed.toList.contains c then fail ("Illegal option -" ++ c.toString)
      else if takesValue c then
        match cs, rest with
        | [], [] => fail ("No arg for -" ++ c.toString ++ " option")
        | [], value :: rest =>
          let (more, operands) ← options allowed fuel rest
          return ((c, value) :: more, operands)
        | cs, rest =>
          let (more, operands) ← options allowed fuel rest
          return ((c, cs) :: more, operands)
      else
        let (more, operands) ← options allowed fuel (if cs.isEmpty then rest else ('-' :: cs) :: rest)
        return ((c, []) :: more, operands)
    | words => return ([], words)

def optionsOf (allowed : String) (words : List Octets) :
    Act (List (Char × Octets) × List Octets) :=
  options allowed (total (words.map List.length) + words.length + 1) words

end Act

end Diaporama.Rehearsal
