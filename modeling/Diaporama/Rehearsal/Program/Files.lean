import Diaporama.Rehearsal.Program.Lines
import Diaporama.Rehearsal.Program.Print
import Diaporama.Rehearsal.Script.Pattern

/-!
# Files

Programs that create files, directories and links, copy, compare, move and remove them, list them, and
change their permissions.
-/

namespace Diaporama.Rehearsal.Program

open Tool

/-! ## Paths and nodes -/

def inside (directory name : Octets) : Octets :=
  if directory.getLast? = some '/' then directory ++ name else directory ++ '/' :: name

def nodeAt? (path : Octets) : Tool (Option Node) := do
  return (← process).nodeAt? path

def entryAt? (path : Octets) : Tool (Option Node) := do
  let p ← process
  return (p.volume.findEntry? p.directory path).map p.volume.node

def change (complaint : String) (act : Volume → NodeId → Except OsFault Volume) : Tool Unit := do
  let p ← process
  match act p.volume p.directory with
  | .ok v => setVolume v
  | .error fault => fail 1 (complaint ++ ": " ++ fault.description)

def faultAt (path : Octets) : Tool OsFault := do
  let p ← process
  match p.volume.find p.directory path with
  | .error fault => return fault
  | .ok _ => return .notFound

/-- The paths among operands that something goes from, each with the one it goes to: the last operand,
or its place in that if it is a directory. -/
def ways (operands : List Octets) (isPlain : Bool) : Tool (List (Octets × Octets)) := do
  match operands.reverse with
  | [] => abortWithHint 1 "missing file operand"
  | [one] => abortWithHint 1 ("missing destination file operand after " ++ Quoting.always one)
  | target :: sources =>
    let isInto := !isPlain && (← nodeAt? target).any Node.isDirectory
    if !isInto && 1 < sources.length then
      abort 1 ("target " ++ Quoting.always target ++ ": " ++
        (if (← nodeAt? target).isSome then OsFault.notDirectory else .notFound).description)
    return sources.reverse.map fun source =>
      (source, if isInto then inside target (baseName [] source) else target)

def maxDepth : Nat := 1000

/-! ## Copying and moving -/

def copyFile (n : Node) (source target : Octets) : Tool Unit := do
  match (← process).readFile source with
  | .error fault =>
    fail 1 ("cannot open " ++ Quoting.always source ++ " for reading: " ++ fault.description)
  | .ok text =>
    let isNew := (← nodeAt? target).isNone
    match ← openFile .write target with
    | .error fault =>
      fail 1 ("cannot create regular file " ++ Quoting.always target ++ ": " ++ fault.description)
    | .ok id =>
      writeFile id text
      let p ← process
      match p.find? target with
      | some id => if isNew then setVolume (p.volume.setMode id n.mode)
      | none => return

def copyTree (isRecursive : Bool) : Nat → Octets → Octets → Tool Unit
  | 0, _, _ => pure ()
  | depth + 1, source, target => do
    let p ← process
    match p.find? source with
    | none =>
      fail 1 ("cannot stat " ++ Quoting.always source ++ ": " ++ (← faultAt source).description)
    | some id =>
      let n := p.volume.node id
      if p.find? target = some id then
        fail 1 (Quoting.always source ++ " and " ++ Quoting.always target ++ " are the same file")
      else if !n.isDirectory then
        if (← nodeAt? target).any Node.isDirectory then
          fail 1 ("cannot overwrite directory " ++ Quoting.always target ++ " with non-directory")
        else copyFile n source target
      else if !isRecursive then
        fail 1 ("-r not specified; omitting directory " ++ Quoting.always source)
      else
        if (← nodeAt? target).isNone then
          change ("cannot create directory " ++ Quoting.always target) fun v here =>
            v.makeDirectory here target n.mode
        for name in p.volume.names id do
          copyTree isRecursive depth (inside source name) (inside target name)

def cp : Program := fun _ words => do
  let o ← options "afpRrT" "" 1 words
  for (source, target) in ← ways o.operands (o.has 'T') do
    copyTree (o.has 'a' || o.has 'r' || o.has 'R') maxDepth source target

def mv : Program := fun _ words => do
  let o ← options "fT" "" 1 words
  for (source, target) in ← ways o.operands (o.has 'T') do
    if (← entryAt? source).isNone then
      fail 1 ("cannot stat " ++ Quoting.always source ++ ": " ++ (← faultAt source).description)
    else
      change ("cannot move " ++ Quoting.always source ++ " to " ++ Quoting.always target)
        fun v here => v.rename here source target

/-! ## Removing -/

def removeTree (o : Options) : Nat → Octets → Tool Unit
  | 0, _ => pure ()
  | depth + 1, path => do
    let complaint := "cannot remove " ++ Quoting.always path
    match ← entryAt? path with
    | none =>
      let fault ← faultAt path
      if !(o.has 'f' && (fault = .notFound || fault = .notDirectory)) then
        fail 1 (complaint ++ ": " ++ fault.description)
    | some n =>
      if !n.isDirectory then change complaint fun v here => v.unlink here path
      else if !(o.has 'r' || o.has 'R') then fail 1 (complaint ++ ": Is a directory")
      else
        let p ← process
        for name in ((p.find? path).map p.volume.names).getD [] do
          removeTree o depth (inside path name)
        change complaint fun v here => v.removeDirectory here path

def rm : Program := fun _ words => do
  let o ← options "fRr" "" 1 words
  if o.operands.isEmpty && !o.has 'f' then abortWithHint 1 "missing operand"
  for path in o.operands do removeTree o maxDepth path

def rmdir : Program := fun _ words => do
  let o ← options "" "" 1 words
  for path in o.operands do
    change ("failed to remove " ++ Quoting.always path) fun v here => v.removeDirectory here path

/-! ## Creating -/

def wayTo (path : Octets) : List Octets :=
  let parts := Octets.split '/' path
  (List.range parts.length).map fun i => ['/'].intercalate (parts.take (i + 1))

def mkdir : Program := fun _ words => do
  let o ← options "p" "" 1 words
  if o.operands.isEmpty then abortWithHint 1 "missing operand"
  for path in o.operands do
    for part in if o.has 'p' then (wayTo path).filter (!·.isEmpty) else [path] do
      if !(o.has 'p' && (← nodeAt? part).any Node.isDirectory) then
        change ("cannot create directory " ++ Quoting.always part) fun v here =>
          v.makeDirectory here part 0o755

def ln : Program := fun _ words => do
  let o ← options "fnsT" "" 1 words
  let operands := match o.operands with
    | [one] => [one, ['.']]
    | operands => operands
  let isLinked := (← entryAt? (operands.getLast?.getD [])).any Node.isLink
  for (source, target) in ← ways operands (o.has 'T' || o.has 'n' && isLinked) do
    if o.has 'f' && (← entryAt? target).any (!·.isDirectory) then
      change ("cannot remove " ++ Quoting.always target) fun v here => v.unlink here target
    if o.has 's' then
      change ("failed to create symbolic link " ++ Quoting.always target) fun v here =>
        v.makeLink here source target
    else
      change ("failed to create hard link " ++ Quoting.always target) fun v here => do
        v.makeName here (← v.findEntry here source) target

def touch : Program := fun _ words => do
  let o ← options "acm" "" 1 words
  if o.operands.isEmpty then abortWithHint 1 "missing file operand"
  for path in o.operands do
    if (← nodeAt? path).isNone && !o.has 'c' then
      match ← openFile .append path with
      | .ok _ => pure ()
      | .error fault => fail 1 ("cannot touch " ++ Quoting.always path ++ ": " ++ fault.description)

def freshLetters (n seed : Nat) : Octets :=
  let letters := "abcdefghijklmnopqrstuvwxyzABCDEFGHIJKLMNOPQRSTUVWXYZ0123456789".toList
  (List.range n).map fun i => (letters[(seed * 7919 + i * i * 104729 + i * 31 + 17) % 62]?).getD 'a'

def mktemp : Program := fun _ words => do
  let o ← options "d" "" 1 words
  let p ← process
  let template := o.operands.headD "/tmp/tmp.XXXXXXXXXX".toList
  let count := (template.reverse.takeWhile (· = 'X')).length
  if count < 3 then abort 1 ("too few X's in template " ++ Quoting.always template)
  let path := template.take (template.length - count) ++ freshLetters count p.volume.nodes.size
  let complaint := "failed to create file via template " ++ Quoting.always template
  if o.has 'd' then change complaint fun v here => v.makeDirectory here path 0o700
  else change complaint fun v here => (v.openToWrite here path 0o600).map (·.1)
  if (← get).status = 0 then printLine path

/-! ## Permissions -/

def modeOf? (text : Octets) (mode : Nat) : Option Nat :=
  if !text.isEmpty && text.all Format.isOctal then some (Octets.numberIn 8 text)
  else
    let who := text.takeWhile "ugoa".toList.contains
    let has (c : Char) : Bool := who.isEmpty || who.contains 'a' || who.contains c
    let places := (if has 'u' then 0o700 else 0) ||| (if has 'g' then 0o070 else 0) |||
      (if has 'o' then 0o007 else 0)
    match text.drop who.length with
    | sign :: letters =>
      let bit (c : Char) : Nat := if c = 'r' then 0o444 else if c = 'w' then 0o222 else 0o111
      let bits := letters.foldl (fun bits c => bits ||| bit c) 0 &&& places
      if !letters.all "rwx".toList.contains then none
      else match sign with
        | '+' => some (mode ||| bits)
        | '-' => some (mode &&& (0o7777 - bits))
        | '=' => some ((mode &&& (0o7777 - places)) ||| bits)
        | _ => none
    | [] => none

def chmod : Program := fun _ words => do
  match words with
  | [] => abortWithHint 1 "missing operand"
  | text :: paths =>
    if (modeOf? text 0).isNone then abortWithHint 1 ("invalid mode: " ++ Quoting.always text)
    for path in paths do
      change ("cannot access " ++ Quoting.always path) fun v here => do
        let id ← v.find here path
        return v.setMode id ((modeOf? text (v.node id).mode).getD 0)

/-! ## Comparing -/

def cmp : Program := fun _ words => do
  let o ← options "s" "" 2 words
  match o.operands with
  | [one, two] =>
    let load (file : Octets) : Tool Octets := do
      match ← readOperand file with
      | .ok text => return text
      | .error fault =>
        if o.has 's' then quit 2
        abort 2 (String.ofList file ++ ": " ++ fault.description)
    let a ← load one
    let b ← load two
    let same := ((a.zip b).takeWhile fun (c, d) => c = d).length
    if a = b then return
    setStatus 1
    if o.has 's' then return
    let name := String.ofList (if a.length = same then one else two)
    if same = min a.length b.length then
      fail 1 ("EOF on " ++ name ++ (if same = 0 then " which is empty" else
        " after byte " ++ toString same))
    else
      let line := (a.take same).count '\n' + 1
      printLine (one ++ ' ' :: two ++ (" differ: char " ++ toString (same + 1) ++ ", line " ++
        toString line).toList)
  | _ => abortWithHint 2 "missing operand"

/-! ## Listing -/

/-- The names of what is in a directory, those that start with a dot only if that is asked for. -/
def listedNames (o : Options) (v : Volume) (id : NodeId) : List Octets :=
  let names := v.names id
  if o.has 'a' then ['.'] :: ['.', '.'] :: names
  else if o.has 'A' then names
  else names.filter fun name => name.head? ≠ some '.'

def ls : Program := fun _ words => do
  let o ← options "1aAdr" "" 2 words
  let operands := if o.operands.isEmpty then [['.']] else o.operands.mergeSort Octets.precedes
  let p ← process
  let ordered (names : List Octets) : List Octets := if o.has 'r' then names.reverse else names
  let mut files : List Octets := []
  let mut directories : List (Octets × NodeId) := []
  for path in operands do
    match p.volume.find p.directory path, p.volume.findEntry? p.directory path with
    | .error fault, none =>
      fail 2 ("cannot access " ++ Quoting.always path ++ ": " ++ fault.description)
    | .ok id, _ =>
      if p.volume.isDirectory id && !o.has 'd' then directories := directories ++ [(path, id)]
      else files := files ++ [path]
    | _, _ => files := files ++ [path]
  for name in ordered files do printLine name
  for (path, id) in directories do
    if 1 < operands.length then
      if !files.isEmpty || (directories.head?.map (·.1)) ≠ some path then print ['\n']
      printLine (path ++ [':'])
    for name in ordered (listedNames o p.volume id) do printLine name

inductive Criterion where
  | kind (letter : Octets)
  | name (pattern : Octets)

def criteria : List Octets → Tool (List Criterion)
  | [] => return []
  | option :: words => do
    match String.ofList option, words with
    | "-print", words => criteria words
    | "-type", letter :: words => return .kind letter :: (← criteria words)
    | "-name", pattern :: words => return .name pattern :: (← criteria words)
    | _, _ => abort 1 ("unknown predicate " ++ Quoting.always option)

def Criterion.holds (c : Criterion) (path : Octets) (n : Node) : Bool :=
  match c with
  | .kind letter => letter = [if n.isDirectory then 'd' else if n.isLink then 'l' else 'f']
  | .name pattern => (Pattern.ofText pattern false).accepts (baseName [] path)

def findBelow (cs : List Criterion) : Nat → Octets → Tool Unit
  | 0, _ => pure ()
  | depth + 1, path => do
    let p ← process
    match p.volume.findEntry p.directory path with
    | .error fault => fail 1 (Quoting.always path ++ ": " ++ fault.description)
    | .ok id =>
      if cs.all fun c => c.holds path (p.volume.node id) then printLine path
      for (name, _) in p.volume.entries id do findBelow cs depth (inside path name)

def find : Program := fun _ words => do
  let paths := words.takeWhile fun w => w.head? ≠ some '-'
  let cs ← criteria (words.drop paths.length)
  for path in if paths.isEmpty then [['.']] else paths do findBelow cs maxDepth path

/-! ## Blocks -/

def records (size block : Nat) (what : String) : Octets :=
  Octets.ofNat (size / block) ++ '+' :: (if size % block = 0 then '0' else '1') ::
    (" records " ++ what ++ "\n").toList

def dd : Program := fun _ words => do
  let value? (name : String) : Option Octets :=
    (words.reverse.find? fun w => w.takeWhile (· ≠ '=') = name.toList).map fun w =>
      w.drop (name.length + 1)
  let number (name : String) (usual : Nat) : Tool Nat := do
    match (value? name).map amount? with
    | none => return usual
    | some (some n) => return n
    | some none => abort 1 ("invalid number: " ++ Quoting.always ((value? name).getD []))
  let block := max 1 (← number "bs" 512)
  let skipped := (← number "skip" 0) * block
  let limit ← if (value? "count").isSome then do pure ((← number "count" 0) * block)
    else pure Process.unlimited
  let input ← match value? "if" with
    | none => do pure ((← readAll 0).toOption.getD [])
    | some file =>
      let p ← process
      match p.openPath .read file >>= fun (p, id) =>
          p.remaining (p.system.files[id]?.getD default) (skipped + limit) with
      | .error fault => abort 1 ("failed to open " ++ Quoting.always file ++ ": " ++ fault.description)
      | .ok bytes => pure (Octets.ofBytes bytes)
  let data := (input.drop skipped).take limit
  match value? "of" with
  | none => print data
  | some file =>
    match ← openFile .write file with
    | .error fault => abort 1 ("failed to open " ++ Quoting.always file ++ ": " ++ fault.description)
    | .ok id => writeFile id data
  flush
  if value? "status" ≠ some "none".toList then
    say (records data.length block "in" ++ records data.length block "out")
    say (Octets.ofNat data.length ++ " bytes copied, 0.0001 s, 0.0 kB/s\n".toList)

end Diaporama.Rehearsal.Program
