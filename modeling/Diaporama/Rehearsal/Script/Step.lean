import Diaporama.Rehearsal.Script.Lookup
import Diaporama.Rehearsal.Script.Start

/-!
# Steps of a script

The small steps that running a script consists of: writing out what was printed, opening and copying
descriptors, looking at a status, and going back to how things were before.
-/

namespace Diaporama.Rehearsal

def Alteration.complaint (colon : Bool) : String :=
  if colon then "parameter not set or null" else "parameter not set"

def Part.ofValue (isQuoted : Bool) (text : Octets) : Part :=
  if isQuoted then .text text true else .value text

/-- The parts of a text in place of a value, which are split as the value would be. -/
def Part.inPlace (isQuoted : Bool) (ps : List Part) : List Part :=
  if isQuoted then ps
  else ps.map fun p =>
    match p with
    | .text cs false => .value cs
    | p => p

def Session.forProgram (s : Session) : Process :=
  { s.process with
    environment := s.exported
    ignored := s.ignoredByTraps ++ s.process.ignored }

namespace Act

open Session

/-- Writes out what a command of the shell has printed, and tells whether that was possible. -/
def flush : Act Bool := do
  let s ← get
  let text := s.pending.reverse.flatten
  set { s with pending := [] }
  if text.isEmpty then return true
  match s.process.write 1 text with
  | .ok process =>
    modify fun s => { s with process }
    return true
  | .error fault =>
    if fault = .brokenPipe && (s.traps.lookup 13).isNone && !s.process.ignored.contains 13 then
      throw (.killed 13)
    else return false

/-- Runs a command of the shell. Its mistakes end the shell only if it is a special one. -/
def runBuiltin (isSpecial : Bool) (name : Octets) (act : Act Nat) : Act Unit := do
  let before := (← get).running
  modify fun s => { s with running := some name, pending := [] }
  let result ← observing act
  let isWritten ← flush
  match result with
  | .ok status =>
    if !isWritten then warn (String.ofList name ++ ": I/O error")
    modify fun s => { s with running := before, status := if isWritten then status else status ||| 1 }
  | .error stop =>
    modify fun s => { s with running := before }
    if stop ≠ .mistake || isSpecial then throw stop

/-- The status of a process that has ended; a signal that ended it is told, but for those that are
usual. -/
def statusOf (status : ExitStatus) : Act Nat := do
  match status with
  | .exited n => return n
  | .signalled signal =>
    if signal ≠ 2 && signal ≠ 13 then writeTo 2 (signalDescription signal ++ "\n").toList
    return 128 + signal

def check (isTested : Bool) : Act Unit := do
  let s ← get
  if s.has 'e' && !isTested && s.status ≠ 0 then throw .ending

/-- What a loop does about the commands that were left out: whether it goes on, and whether a
function is left. -/
def leaveRound : Act Skip := do
  match (← get).skip with
  | .nothing => return .nothing
  | .returning => return .returning
  | .breaking loops =>
    modify fun s => { s with skip := if loops ≤ 1 then .nothing else .breaking (loops - 1) }
    return .breaking 1
  | .continuing loops =>
    if loops ≤ 1 then
      modify fun s => { s with skip := .nothing }
      return .continuing 1
    else
      modify fun s => { s with skip := .continuing (loops - 1) }
      return .breaking 1

def leaveFrames (depth : Nat) : Act Unit :=
  modify fun s =>
    let (inner, outer) := s.frames.splitAt (s.frames.length - depth)
    let s := inner.flatten.foldl (fun s (name, v) => s.putVariable name v) s
    { s with frames := outer }

def openProblem (kind : RedirectionKind) (path : Octets) (fault : OsFault) : String :=
  let isMissing := fault = .notFound || fault = .notDirectory
  if kind = .read then
    "cannot open " ++ String.ofList path ++ ": " ++
      (if isMissing then "No such file" else fault.description)
  else
    "cannot create " ++ String.ofList path ++ ": " ++
      (if isMissing then "Directory nonexistent" else fault.description)

def openFile (descriptor : Nat) (kind : RedirectionKind) (path : Octets) : Act Unit := do
  let s ← get
  let how : Process.Opening := match kind with
    | .read => .read
    | .readWrite => .readWrite
    | .append => .append
    | .write => if s.has 'C' then .writeNew else .write
    | _ => .write
  match s.process.openPath how path with
  | .ok (process, id) => set { s with process := process.setDescriptor descriptor id }
  | .error fault => fail (openProblem kind path fault)

def copyDescriptor (descriptor : Nat) (source : Octets) : Act Unit := do
  let s ← get
  match Octets.number? source with
  | none => set { s with process := s.process.closeDescriptor descriptor }
  | some n =>
    if n ≠ descriptor then
      match s.process.descriptors.lookup n with
      | some id => set { s with process := s.process.setDescriptor descriptor id }
      | none =>
        set { s with process := s.process.closeDescriptor descriptor }
        fail (String.ofList source ++ ": Bad file descriptor")

def feed (descriptor : Nat) (text : Octets) : Act Unit :=
  modify fun s =>
    let (p, input, output) := s.process.addPipe
    let p := (p.writeTo output text).toOption.getD p
    { s with process := p.setDescriptor descriptor input }

def showCommand (before : List (Nat × Nat)) (start : Octets) (texts : List Octets) : Act Unit := do
  let s ← get
  match before.lookup 2 with
  | none => return
  | some id =>
    match s.process.writeTo id (start ++ Octets.joined [' '] texts ++ ['\n']) with
    | .ok process => set { s with process }
    | .error _ => return

/-- Waits for commands that ran in the background; they have ended already. -/
def wait (words : List Octets) : Act Nat := do
  let s ← get
  match (words.map Octets.number).getLast? with
  | none => return 0
  | some number =>
    return match s.jobs.lookup number with
      | some (.exited n) => n
      | some (.signalled signal) => 128 + signal
      | none => 127

def scriptText (text : Octets) : Octets :=
  text.filter fun c => 0 < c.toNat

/-- A part of the shell that runs in the background, without an input. -/
def inBackground (s : Session) : Session :=
  let p := s.forked.process
  match p.openPath .read "/dev/null".toList with
  | .ok (p, id) => { s.forked with process := p.setDescriptor 0 id }
  | .error _ => s.forked

end Act

end Diaporama.Rehearsal
