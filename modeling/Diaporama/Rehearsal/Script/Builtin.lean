import Diaporama.Rehearsal.Script.Printf
import Diaporama.Rehearsal.Script.Test

/-!
# Commands of the shell itself

The commands that look at the session and change it: its arguments, names, traps and directory, what it
reads, and whether it goes on.
-/

namespace Diaporama.Rehearsal

namespace Session

def searchPath (s : Session) : List Octets :=
  Octets.split ':' (s.value "PATH")

def inDirectory (directory name : Octets) : Octets :=
  if directory.isEmpty then name else directory ++ '/' :: name

def programPath? (s : Session) (name : Octets) : Option Octets :=
  let paths := if name.contains '/' then [name]
    else s.searchPath.map fun directory => inDirectory directory name
  paths.find? fun path =>
    (s.process.nodeAt? path).any fun n => n.isFile && n.isExecutable

/-- The commands of the shell that are run without looking further. -/
def builtins : List String :=
  specialCommands ++ ["[", "cd", "command", "echo", "false", "kill", "printf", "pwd", "read", "test",
    "true", "type", "umask", "wait"]

def isBuiltin (name : Octets) : Bool :=
  builtins.contains (String.ofList name)

end Session

namespace Act

open Session

/-! ## Variables -/

def binding (word : Octets) : Octets × Option Octets :=
  match word.dropWhile (· ≠ '=') with
  | _ :: value => (word.takeWhile (· ≠ '='), some value)
  | [] => (word, none)

def checkName (name : Octets) : Act Unit := do
  if !Word.isName name then fail (String.ofList name ++ ": bad variable name")

def mark (change : Variable → Variable) (word : Octets) : Act Unit := do
  let (name, value) := binding word
  checkName name
  match value with
  | some value => assign name value
  | none => pure ()
  modify fun s =>
    s.putVariable name (some (change ((s.bindings.lookup name).getD ⟨none, false, false⟩)))

def markAll (change : Variable → Variable) (words : List Octets) : Act Nat := do
  let (_, words) ← optionsOf "" words
  for word in words do mark change word
  return 0

/-- Remembers the value of a name, to go back to it behind the running function. -/
def shadow (name : Octets) : Act Unit :=
  modify fun s =>
    match s.frames with
    | [] => s
    | frame :: frames =>
      if frame.any fun entry => entry.1 = name then s
      else { s with frames := ((name, s.bindings.lookup name) :: frame) :: frames }

def localNames (words : List Octets) : Act Nat := do
  if (← get).functionDepth = 0 then fail "not in a function"
  for word in words do
    let (name, value) := binding word
    checkName name
    shadow name
    match value with
    | some value => assign name value
    | none => pure ()
  return 0

def unsetAll (words : List Octets) : Act Nat := do
  let (flags, words) ← optionsOf "vf" words
  for name in words do
    if (flags.getLast?.map (·.1)) = some 'f' then
      modify fun s => { s with functions := s.functions.filter fun entry => entry.1 ≠ name }
    else
      checkName name
      unset name
  return 0

/-! ## Switches and arguments -/

def switch (on : Bool) (letter : Char) : Act Unit :=
  modify fun s =>
    let others := s.switches.filter (· ≠ letter)
    { s with switches := if on then letter :: others else others }

def switchByLetter (on : Bool) (letter : Char) : Act Unit := do
  match switchLetters.lookup letter with
  | some _ => switch on letter
  | none => fail ("Illegal option " ++ (if on then "-" else "+") ++ letter.toString)

def switchByName (on : Bool) (name : Octets) : Act Unit := do
  match switchLetters.find? fun entry => entry.2 = String.ofList name with
  | some (letter, _) => switch on letter
  | none => fail ("Illegal option " ++ (if on then "-" else "+") ++ "o " ++ String.ofList name)

/-- Takes over the switches of one word; `o` takes one of the next words as a name, and among the
words of a new shell `c` tells that a script follows. -/
def takeSwitches (isStart on : Bool) : Octets → List Octets → Act (List Octets × Bool)
  | [], words => pure (words, false)
  | c :: cs, words => do
    if c = 'c' && isStart then
      let (words, _) ← takeSwitches isStart on cs words
      return (words, true)
    else if c = 'l' && isStart then takeSwitches isStart on cs words
    else if c = 'o' then
      match words with
      | name :: words =>
        switchByName on name
        takeSwitches isStart on cs words
      | [] => fail "-o requires an argument"
    else
      switchByLetter on c
      takeSwitches isStart on cs words

/-- Reads switches at the start of words. Gives the words behind them, whether there was a mark for
their end, and whether a script follows. -/
def readSwitches (isStart : Bool) : Nat → List Octets → Act (List Octets × Bool × Bool)
  | 0, words => pure (words, false, false)
  | fuel + 1, words => do
    match words with
    | ['-', '-'] :: words => return (words, true, false)
    | ['-'] :: words =>
      if !isStart then
        switch false 'x'
        switch false 'v'
      return (words, false, false)
    | (sign :: letters) :: rest =>
      if sign = '-' || sign = '+' then
        let (rest, before) ← takeSwitches isStart (sign = '-') letters rest
        let (rest, isMarked, behind) ← readSwitches isStart fuel rest
        return (rest, isMarked, before || behind)
      else return (words, false, false)
    | words => return (words, false, false)

def setArguments (arguments : List Octets) : Act Unit :=
  modify fun s => { s with arguments }

def configure (words : List Octets) : Act Nat := do
  let (arguments, isMarked, _) ← readSwitches false (words.length + 1) words
  if isMarked || !arguments.isEmpty then setArguments arguments
  return 0

def shift (words : List Octets) : Act Nat := do
  let n ← match words with
    | word :: _ => number word
    | [] => pure 1
  let s ← get
  if s.arguments.length < n then fail "can't shift that many"
  setArguments (s.arguments.drop n)
  return 0

/-! ## Reading -/

/-- The characters of a line of input, each with whether it may separate fields. Without `raw` a
backslash takes that away from the next character, and joins lines. -/
def readLine (raw : Bool) : Nat → List (Char × Bool) → Act (List (Char × Bool) × Bool)
  | 0, found => pure (found.reverse, false)
  | fuel + 1, found => do
    let next : Act (Option Char) := do
      match (← get).process.readByte 0 with
      | some (c, process) =>
        modify fun s => { s with process }
        return some c
      | none => return none
    match ← next with
    | none => return (found.reverse, false)
    | some '\n' => return (found.reverse, true)
    | some c =>
      if c.toNat = 0 then readLine raw fuel found
      else if c = '\\' && !raw then
        match ← next with
        | none => return (found.reverse, false)
        | some '\n' => readLine raw fuel found
        | some d => readLine raw fuel ((d, false) :: found)
      else readLine raw fuel ((c, true) :: found)

/-- Divides a line among `count` names: each takes a field, and the last one what is left without the
blanks at its end. -/
def distribute (separators : Octets) : Nat → List (Char × Bool) → List Octets
  | 0, _ => []
  | count + 1, cells =>
    let isSeparator (cell : Char × Bool) : Bool := cell.2 && separators.contains cell.1
    let isBlank (cell : Char × Bool) : Bool := isSeparator cell && Fields.isDefaultSeparator cell.1
    let cells := cells.dropWhile isBlank
    let first := cells.takeWhile (!isSeparator ·)
    let behind := cells.drop first.length
    let blanks := behind.takeWhile isBlank
    let afterBlanks := behind.drop blanks.length
    let rest := match afterBlanks with
      | cell :: rest => if isSeparator cell then rest.dropWhile isBlank else afterBlanks
      | [] => []
    if cells.isEmpty then []
    else if count = 0 then
      if rest.isEmpty then [first.map (·.1)]
      else [((cells.reverse.dropWhile isBlank).reverse).map (·.1)]
    else first.map (·.1) :: distribute separators count rest

def read (words : List Octets) : Act Nat := do
  let (flags, names) ← optionsOf "p:r" words
  if names.isEmpty then fail "arg count"
  let (cells, isWhole) ← readLine (flags.any (·.1 = 'r')) Process.unlimited []
  let fields := distribute (← get).separators names.length cells
  for (name, i) in names.zipIdx do
    checkName name
    assign name ((fields[i]?).getD [])
  return if isWhole then 0 else 1

/-! ## Signals -/

def setTraps (action : Option Octets) : List Octets → Act Nat
  | [] => pure 0
  | word :: words => do
    match signal? 0 word with
    | none =>
      writeTo 2 ("trap: ".toList ++ word ++ ": bad trap\n".toList)
      return 1
    | some n =>
      modify fun s =>
        let others := s.traps.filter fun entry => entry.1 ≠ n
        { s with traps := match action with
            | some action => if s.process.ignored.contains n then others else (n, action) :: others
            | none => others }
      setTraps action words

def trap (words : List Octets) : Act Nat := do
  let (_, words) ← optionsOf "" words
  match words with
  | [] => return 0
  | [_] => setTraps none words
  | action :: signals =>
    if (signal? 0 action).isSome then setTraps none words
    else setTraps (if action = ['-'] then none else some action) signals

def send (signal : Nat) (words : List Octets) : Act Nat := do
  if words.isEmpty then fail "Usage: kill [-s sigspec | -signum | -sigspec] [pid | job]..."
  let mut status := 0
  for word in words do
    let receiver ← number word
    if (← get).process.isRunning receiver then
      modify fun s => { s with process := s.process.send receiver signal }
    else
      warn "No such process\n"
      status := 1
  receiveSignals
  return status

def kill (words : List Octets) : Act Nat := do
  let named (name : Octets) (targets : List Octets) : Act Nat := do
    match signal? 1 name with
    | some n => send n targets
    | none => fail ("invalid signal number or name: " ++ String.ofList name)
  match words with
  | ['-', 's'] :: name :: targets => named name targets
  | ['-', '-'] :: targets => send 15 targets
  | ('-' :: name) :: targets => named name targets
  | targets => send 15 targets

/-! ## Directories -/

def joinedPath (base path : Octets) : Octets :=
  let start := if path.head? = some '/' then [] else (Octets.split '/' base).filter (!·.isEmpty)
  let parts := (Octets.split '/' path).foldl (fun found part =>
    if part.isEmpty || part = ['.'] then found
    else if part = ['.', '.'] then found.dropLast
    else found ++ [part]) start
  if parts.isEmpty then ['/'] else parts.flatMap ('/' :: ·)

def enter? (isPhysical : Bool) (path : Octets) : Act Bool := do
  let s ← get
  let reached := joinedPath s.path path
  match s.process.find? (if isPhysical then path else reached) with
  | none => return false
  | some id =>
    if !s.process.volume.isDirectory id then return false
    let now := if isPhysical then s.process.volume.path id else reached
    modify fun s => { s with process.directory := id, path := now }
    mark (fun v => { v with value := some s.path, isExported := true }) "OLDPWD".toList
    mark (fun v => { v with value := some now, isExported := true }) "PWD".toList
    return true

def changeDirectory (words : List Octets) : Act Nat := do
  let (flags, words) ← optionsOf "LP" words
  let isPhysical := (flags.getLast?.map (·.1)) = some 'P'
  let s ← get
  let (target, isShown) := match words with
    | [] => (s.value "HOME", false)
    | ['-'] :: _ => (s.value "OLDPWD", true)
    | word :: _ => (word, false)
  let target := if target.isEmpty then ['.'] else target
  let isFixed := target.head? = some '/' || target = ['.'] || target = ['.', '.'] ||
    "./".toList.isPrefixOf target || "../".toList.isPrefixOf target
  let bases := if isFixed then [[]] else Octets.split ':' (s.value "CDPATH")
  for base in bases do
    if ← enter? isPhysical (inDirectory base target) then
      if isShown || !base.isEmpty then print ((← get).path ++ ['\n'])
      return 0
  fail ("can't cd to " ++ String.ofList target)

def printDirectory (words : List Octets) : Act Nat := do
  let (flags, _) ← optionsOf "LP" words
  let s ← get
  let path := if (flags.getLast?.map (·.1)) = some 'P' then
      s.process.volume.path s.process.directory
    else s.path
  print (path ++ ['\n'])
  return 0

/-! ## What commands are -/

/-- Says what a name is as a command; `isShort` leaves out the words around it. -/
def describe (isShort : Bool) (name : Octets) : Act Nat := do
  let s ← get
  let tell (long short : Octets) : Act Nat := do
    print ((if isShort then short else name ++ long) ++ ['\n'])
    return 0
  let text := String.ofList name
  if keywords.contains text then tell " is a shell keyword".toList name
  else if (s.functions.lookup name).isSome then tell " is a shell function".toList name
  else if specialCommands.contains text then tell " is a special shell builtin".toList name
  else if isBuiltin name then tell " is a shell builtin".toList name
  else match s.programPath? name with
    | some path => tell (" is ".toList ++ path) path
    | none =>
      if !isShort then print (name ++ ": not found\n".toList)
      return 127

def describeAll (words : List Octets) : Act Nat := do
  let mut status := 0
  for word in words do
    status := max status (← describe false word)
  return status

/-! ## Loops and the end -/

def leaveLoops (skip : Nat → Skip) (words : List Octets) : Act Nat := do
  let n ← match words with
    | word :: _ => number word
    | [] => pure 1
  if n = 0 then fail ("Illegal number: " ++ String.ofList (words.headD []))
  let loops := (← get).loops
  let n := min n loops
  if 0 < n then modify fun s => { s with skip := skip n }
  return 0

def returnWith (words : List Octets) : Act Nat := do
  match words with
  | word :: _ =>
    let n ← number word
    modify fun s => { s with skip := .returning }
    return n
  | [] =>
    modify fun s => { s with skip := .returning }
    return (← get).status

def exit (words : List Octets) : Act Nat := do
  match words with
  | word :: _ =>
    let n ← number word
    modify fun s => { s with keptStatus := some n }
  | [] => pure ()
  modify fun s =>
    match s.keptStatus with
    | some n => { s with status := n }
    | none => s
  throw .leaving

def test (words : List Octets) : Act Nat := do
  match Test.answer (← get).process words with
  | .ok holds => return if holds then 0 else 1
  | .error problem => fail problem

def bracket (words : List Octets) : Act Nat := do
  if words.getLast? = some [']'] then test words.dropLast else fail "missing ]"

def builtin? (name : Octets) : Option (List Octets → Act Nat) :=
  match String.ofList name with
  | ":" | "true" | "umask" => some fun _ => pure 0
  | "false" => some fun _ => pure 1
  | "[" => some bracket
  | "test" => some test
  | "break" => some (leaveLoops .breaking)
  | "continue" => some (leaveLoops .continuing)
  | "cd" => some changeDirectory
  | "echo" => some echo
  | "printf" => some printf
  | "exit" => some exit
  | "return" => some returnWith
  | "export" => some (markAll fun v => { v with isExported := true })
  | "readonly" => some (markAll fun v => { v with isReadOnly := true })
  | "kill" => some kill
  | "local" => some localNames
  | "pwd" => some printDirectory
  | "read" => some read
  | "set" => some configure
  | "shift" => some shift
  | "trap" => some trap
  | "type" => some describeAll
  | "unset" => some unsetAll
  | _ => none

end Act

end Diaporama.Rehearsal
