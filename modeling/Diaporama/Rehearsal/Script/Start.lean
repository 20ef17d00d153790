import Diaporama.Rehearsal.Script.Session

/-!
# The start of a shell

A shell starts as a process: its names come from the environment, and home directories stand in place
of tildes.
-/

namespace Diaporama.Rehearsal

def usualPath : Octets :=
  "/usr/local/sbin:/usr/local/bin:/usr/sbin:/usr/bin:/sbin:/bin".toList

namespace Session

/-- The path of the current directory: as the environment has it, if that is right. -/
def startPath (p : Process) : Octets :=
  match p.setting? "PWD".toList with
  | some path =>
    if path.head? = some '/' && p.find? path = some p.directory then path
    else p.volume.path p.directory
  | none => p.volume.path p.directory

def startVariables (p : Process) : List (Octets × Variable) :=
  let shown (value : Octets) : Variable := ⟨some value, true, false⟩
  let own (value : String) : Variable := ⟨some value.toList, false, false⟩
  let inherited := p.environment.filterMap fun (name, value) =>
    if Word.isName name then some (name, shown value) else none
  let fixed : List (String × Variable) := [("IFS", own " \t\n"), ("PS1", own "# "),
    ("PS2", own "> "), ("PS4", own "+ "),
    ("PPID", own (toString p.parent))]
  let before := fixed.map fun (name, v) => (name.toList, v)
  let others := inherited.filter fun entry =>
    !(before.any fun known => known.1 = entry.1 && entry.1 ≠ "PATH".toList) &&
      entry.1 ≠ "PWD".toList
  let path : List (Octets × Variable) :=
    if others.any fun entry => entry.1 = "PATH".toList then []
    else [("PATH".toList, ⟨some usualPath, false, false⟩)]
  path ++ before ++ others ++ [("PWD".toList, shown (startPath p))]

def start (p : Process) (name : Octets) : Session where
  process := p
  name := name
  running := none
  line := 0
  readLine := 0
  arguments := []
  bindings := startVariables p
  frames := []
  functions := []
  documents := #[]
  traps := []
  arrived := []
  switches := []
  status := 0
  innerStatus := 0
  keptStatus := none
  number := p.number
  jobs := []
  skip := .nothing
  loops := 0
  functionDepth := 0
  path := startPath p
  pending := []

/-! ## Tildes -/

/-- The home directory of a user; without a name, that of the user who runs the script. -/
def home? (s : Session) (name : Octets) : Option Octets :=
  if name.isEmpty then s.value? "HOME".toList
  else if name = "root".toList then some "/root".toList
  else none

/-- The pieces of an unquoted text with home directories in place of tildes: of one at the start, and
in a value of those behind colons. `isWhole` tells that nothing follows the text in its word. -/
def withHomes (s : Session) (isValue isWhole : Bool) : Nat → Bool → Octets → List Piece
  | 0, _, cs => [.text cs false]
  | fuel + 1, isStart, cs =>
    let rest (cs : Octets) : List Piece :=
      if !isValue then if cs.isEmpty then [] else [.text cs false]
      else
        let before := cs.takeWhile (· ≠ ':')
        match cs.drop before.length with
        | [] => if cs.isEmpty then [] else [.text cs false]
        | _ :: behind =>
          .text (before ++ [':']) false :: withHomes s isValue isWhole fuel true behind
    match isStart, cs with
    | true, '~' :: cs =>
      let name := cs.takeWhile fun c => c ≠ '/' && !(isValue && c = ':')
      let behind := cs.drop name.length
      match if behind.isEmpty && !isWhole then none else s.home? name with
      | some home => .text home true :: rest behind
      | none => .text ('~' :: name) false :: rest behind
    | _, cs => rest cs

def tilded (s : Session) (isValue : Bool) (w : Word) : Word :=
  let rec go (isStart : Bool) : Word → Word
    | [] => []
    | .text cs false :: rest =>
      s.withHomes isValue rest.isEmpty (cs.length + 1) isStart cs ++
        go (isValue && cs.getLast? = some ':') rest
    | piece :: rest => piece :: go false rest
  go true w

end Session

end Diaporama.Rehearsal
