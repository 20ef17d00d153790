import Diaporama.Rehearsal.Script.Builtin

/-!
# Looking for commands

A command is a function, a command of the shell, or a program in one of the directories for them;
`command` before it leaves out the functions.
-/

namespace Diaporama.Rehearsal

namespace Session

def startProblem (fault : OsFault) : String :=
  if fault = .notFound || fault = .notDirectory then "not found" else fault.description

def startStatus (fault : OsFault) : Nat :=
  if [OsFault.notFound, .notDirectory, .tooManyLinks, .nameTooLong].contains fault then 127
  else 126

def searchProgram (s : Session) (directories : List Octets) (name : Octets) :
    Except OsFault Octets :=
  let step (found : Except OsFault Octets) (directory : Octets) : Except OsFault Octets :=
    match found with
    | .ok path => .ok path
    | .error before =>
      let path := inDirectory directory name
      match s.process.volume.find s.process.directory path with
      | .error fault =>
        .error (if fault = .notFound || fault = .notDirectory then before else fault)
      | .ok id =>
        let n := s.process.volume.node id
        if n.isFile && n.isExecutable then .ok path else .error .permissionDenied
  directories.foldl step (.error .notFound)

/-- The words behind `command` and its options, and whether the usual path is used; nothing if it
only tells about commands. -/
def behindCommand (usesUsual : Bool) : List Octets → Option (Bool × List Octets)
  | [] => none
  | ['-', '-'] :: [] => none
  | ['-', '-'] :: words => some (usesUsual, words)
  | ('-' :: c :: cs) :: words =>
    if (c :: cs).all (· = 'p') then behindCommand true words else none
  | words => some (usesUsual, words)

structure Call where
  /-- The words, the name of the command first. -/
  words : List Octets
  skipsFunctions : Bool
  usesUsualPath : Bool
  /-- Its mistakes end the shell, and the assignments before it stay. -/
  isSpecial : Bool

namespace Call

def name (c : Call) : Octets :=
  c.words.headD []

def isFunction (s : Session) (c : Call) : Bool :=
  !c.skipsFunctions && (s.functions.lookup c.name).isSome

def inner (s : Session) : Nat → Call → Call
  | 0, c => c
  | fuel + 1, c =>
    if c.name = "command".toList && !isFunction s c then
      match behindCommand c.usesUsualPath (c.words.drop 1) with
      | some (usesUsual, words) => inner s fuel ⟨words, true, usesUsual, false⟩
      | none => { c with isSpecial := false }
    else c

def ofWords (s : Session) (words : List Octets) : Call :=
  let name := words.headD []
  let isSpecial := specialCommands.contains (String.ofList name) && (s.functions.lookup name).isNone
  inner s (words.length + 1) ⟨words, false, false, isSpecial⟩

end Call

def assigners : List String := ["export", "readonly", "local"]

def assignsInWords (s : Session) (words : List Octets) : Bool :=
  let c := Call.ofWords s words
  assigners.contains (String.ofList c.name) && !Call.isFunction s c

end Session

end Diaporama.Rehearsal
