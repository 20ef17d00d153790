import Diaporama.Rehearsal.System.Process

/-!
# Programs at work

A program works as a process, under the name it was called by. What it writes is gathered and written
at the end or before a complaint, so that both stay in order. It may end early, with a status or by a
signal, and may start other programs.
-/

namespace Diaporama.Rehearsal

structure Working where
  process : Process
  name : Octets
  /-- What was written and is not out yet, the last text first. -/
  pending : List Octets
  status : Nat

abbrev Tool := ExceptT ExitStatus (StateM Working)

/-- Runs a program, found by its name, as another process to its end. -/
abbrev Launch := Process → List Octets → Except OsFault (ExitStatus × System)

abbrev Program := Launch → List Octets → Tool Unit

namespace Tool

def process : Tool Process := do
  return (← get).process

def setProcess (p : Process) : Tool Unit :=
  modify fun w => { w with process := p }

def setVolume (v : Volume) : Tool Unit :=
  modify fun w => { w with process := w.process.setVolume v }

def quit {α : Type} (status : Nat) : Tool α :=
  throw (.exited status)

def print (text : Octets) : Tool Unit :=
  modify fun w => { w with pending := text :: w.pending }

def printLine (text : Octets) : Tool Unit :=
  print (text ++ ['\n'])

def say (text : Octets) : Tool Unit :=
  modify fun w =>
    match w.process.write 2 text with
    | .ok p => { w with process := p }
    | .error _ => w

def nameText : Tool String := do
  return String.ofList (← get).name

def flush : Tool Unit := do
  let w ← get
  let text := w.pending.reverse.flatten
  if text.isEmpty then return
  set { w with pending := [] }
  match w.process.write 1 text with
  | .ok p => setProcess p
  | .error fault =>
    if fault = .brokenPipe then throw (.signalled 13)
    else
      say (w.name ++ (": write error: " ++ fault.description ++ "\n").toList)
      quit 1

def complain (message : String) : Tool Unit := do
  flush
  say ((← get).name ++ (": " ++ message ++ "\n").toList)

/-- A complaint after which the program goes on, but will end with a status. -/
def fail (status : Nat) (message : String) : Tool Unit := do
  complain message
  modify fun w => { w with status }

def abort {α : Type} (status : Nat) (message : String) : Tool α := do
  complain message
  quit status

def setStatus (status : Nat) : Tool Unit :=
  modify fun w => { w with status }

def abortWithHint {α : Type} (status : Nat) (message : String) : Tool α := do
  complain message
  let name ← nameText
  say ("Try '" ++ name ++ " --help' for more information.\n").toList
  quit status

/-! ## Reading -/

def readAll (descriptor : Nat) : Tool (Except OsFault Octets) := do
  match (← process).readAll descriptor with
  | .ok (text, p) =>
    setProcess p
    return .ok text
  | .error fault => return .error fault

def readOperand (name : Octets) : Tool (Except OsFault Octets) := do
  if name = ['-'] then readAll 0 else return (← process).readFile name

/-- Reads operands one after the other, the standard input if there are none; `complaint` tells what is
wrong with one that cannot be read. -/
def eachInput (files : List Octets) (complaint : Octets → OsFault → String) (status : Nat)
    (use : Octets → Octets → Tool Unit) : Tool Unit := do
  for file in if files.isEmpty then [['-']] else files do
    match ← readOperand file with
    | .ok text => use file text
    | .error fault => fail status (complaint file fault)

def openFile (how : Process.Opening) (path : Octets) : Tool (Except OsFault Nat) := do
  match (← process).openPath how path with
  | .ok (p, id) =>
    setProcess p
    return .ok id
  | .error fault => return .error fault

def writeFile (id : Nat) (text : Octets) : Tool Unit := do
  match (← process).writeTo id text with
  | .ok p => setProcess p
  | .error fault => if fault = .brokenPipe then throw (.signalled 13) else pure ()

def start (launch : Launch) (change : Process → Process) (words : List Octets) :
    Tool (Except OsFault ExitStatus) := do
  flush
  let p ← process
  match launch (change p.fork) words with
  | .ok (status, system) =>
    setProcess (p.resume system)
    return .ok status
  | .error fault => return .error fault

def startStatus (fault : OsFault) : Nat :=
  if fault = .notFound then 127 else 126

/-- Lets another program take the place of this one. -/
def become (launch : Launch) (change : Process → Process) (words : List Octets)
    (complaint : OsFault → String) : Tool Unit := do
  flush
  match launch (change (← process)) words with
  | .ok (status, system) =>
    setProcess ((← process).resume system)
    throw status
  | .error fault => abort (startStatus fault) (complaint fault)

def runAs (program : Program) (launch : Launch) (name : Octets) (words : List Octets) (p : Process) :
    ExitStatus × System :=
  let whole : Tool Unit := do
    program launch words
    flush
  let (result, w) := whole.run ⟨p, name, [], 0⟩
  let w := ((flush : Tool Unit).run w).2
  let status : ExitStatus := match result with
    | .ok () => .exited w.status
    | .error status => status
  (status, w.process.gone)

end Tool

end Diaporama.Rehearsal
