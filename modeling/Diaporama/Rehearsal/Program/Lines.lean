import Diaporama.Rehearsal.Program.Options
import Diaporama.Rehearsal.Program.Quoting

/-!
# Texts and their lines

Programs that pass texts on, show parts of them or count what is in them.
-/

namespace Diaporama.Rehearsal.Program

open Tool

def fileProblem (file : Octets) (fault : OsFault) : String :=
  Quoting.ifNeeded file ++ ": " ++ fault.description

def wholeLines (text : Octets) : List Octets :=
  let parts := Octets.split '\n' text
  let closed := parts.dropLast.map (· ++ ['\n'])
  match parts.getLast? with
  | some [] | none => closed
  | some rest => closed ++ [rest]

/-! ## Whole texts -/

/-- Whether a file is the one that is written to, and has something left to read. -/
def isOutput (p : Process) (file : Octets) : Bool :=
  match p.file? 1 with
  | none => false
  | some f =>
    let node? := if file = ['-'] then (p.file? 0).map (·.node) else p.find? file
    node? = some f.node && (p.volume.node f.node).isFile && f.offset < (p.volume.node f.node).size

def cat : Program := fun _ words => do
  let o ← options "u" "" 1 words
  for file in if o.operands.isEmpty then [['-']] else o.operands do
    flush
    if isOutput (← process) file then
      fail 1 (Quoting.ifNeeded file ++ ": input file is output file")
    else match ← readOperand file with
      | .ok text => print text
      | .error fault =>
        fail 1 (fileProblem file fault)
        if file = ['-'] && fault = .badDescriptor then
          fail 1 ("closing standard input: " ++ fault.description)

def tee : Program := fun _ words => do
  let o ← options "ai" "" 1 words
  let text := (← readAll 0).toOption.getD []
  for file in o.operands do
    match ← openFile (if o.has 'a' then .append else .write) file with
    | .ok id => writeFile id text
    | .error fault => fail 1 (fileProblem file fault)
  print text

/-! ## Parts of texts -/

/-- The number that a text stands for; a letter behind it stands for thousands or millions. -/
def amount? (text : Octets) : Option Nat :=
  let digits := text.takeWhile Char.isDigit
  let factor? : Option Nat := match text.drop digits.length with
    | [] => some 1
    | ['k'] | ['K'] => some 1024
    | ['M'] => some 1048576
    | _ => none
  if digits.isEmpty then none else factor?.map (Octets.number digits * ·)

/-- An amount of lines or bytes with the sign before it, which tells from which end it counts. -/
structure Share where
  count : Nat
  sign : Option Char
  isBytes : Bool

def Share.ofOptions (o : Options) : Tool Share := do
  match o.last? ['n', 'c'] with
  | none => return ⟨10, none, false⟩
  | some letter =>
    let text := (o.value? letter).getD []
    let sign := text.head?.filter fun c => c = '-' || c = '+'
    let digits := if sign.isSome then text.drop 1 else text
    match amount? digits with
    | some n => return ⟨n, sign, letter = 'c'⟩
    | none =>
      abort 1 ("invalid number of " ++ (if letter = 'c' then "bytes" else "lines") ++ ": " ++
        Quoting.always text)

def withoutOldAmount (words : List Octets) : List Octets :=
  match words with
  | ('-' :: c :: cs) :: rest => if c.isDigit then ('-' :: 'n' :: c :: cs) :: rest else words
  | words => words

/-- Shows a part of each of some files, behind headings if there are several. -/
def showParts (words : List Octets) (cut : {α : Type} → Share → List α → List α) : Tool Unit := do
  let o ← options "qv" "nc" 1 (withoutOldAmount words)
  let share ← Share.ofOptions o
  let files := if o.operands.isEmpty then [['-']] else o.operands
  let mut isFirst := true
  for file in files do
    match ← readOperand file with
    | .error fault =>
      let verb := if fault = .isDirectory then "error reading " else "cannot open "
      let ending := if fault = .isDirectory then ": " else " for reading: "
      fail 1 (verb ++ Quoting.always file ++ ending ++ fault.description)
    | .ok text =>
      if o.has 'v' || (1 < files.length && !o.has 'q') then
        let name := if file = ['-'] then "standard input".toList else file
        print ((if isFirst then [] else ['\n']) ++ "==> ".toList ++ name ++ " <==\n".toList)
      isFirst := false
      print (if share.isBytes then cut share text else (cut share (wholeLines text)).flatten)

def head : Program := fun _ words =>
  showParts words fun share parts =>
    parts.take (if share.sign = some '-' then parts.length - share.count else share.count)

def tail : Program := fun _ words =>
  showParts words fun share parts =>
    parts.drop (if share.sign = some '+' then share.count - 1 else parts.length - share.count)

/-! ## Counts -/

/-- The number of words, of which the first one goes on if `isInside` is set. -/
def wordsIn : Bool → Nat → Octets → Nat
  | _, n, [] => n
  | isInside, n, c :: cs =>
    if Octets.isSpace c then wordsIn false n cs
    else if !isInside && '!' ≤ c && c ≤ '~' then wordsIn true (n + 1) cs
    else wordsIn isInside n cs

/-- The counts of a text that options ask for: of its lines, its words and its bytes. -/
def counts (o : Options) (text : Octets) : List Nat :=
  [('l', text.count '\n'), ('w', wordsIn false 0 text), ('c', text.length)].filterMap
    fun (letter, n) => if o.given.isEmpty || o.has letter then some n else none

/-- The width of the counts of files: that of all bytes together, seven if some are no plain files. -/
def countWidth (p : Process) (files : List Octets) (columns : Nat) : Nat :=
  if files.length ≤ 1 && columns = 1 then 1
  else
    let nodes := if files.isEmpty then [(p.file? 0).map fun f => p.volume.node f.node]
      else files.map p.nodeAt?
    let least := if nodes.any fun n => n.any (!·.isFile) then 7 else 1
    max least (Octets.ofNat (total (nodes.map fun n => (n.map Node.size).getD 0))).length

def wc : Program := fun _ words => do
  let o ← options "clmw" "" 1 words
  let o := { o with given := o.given.map fun entry => (if entry.1 = 'm' then 'c' else entry.1, []) }
  let width := countWidth (← process) o.operands (counts o []).length
  let line (ns : List Nat) (name : Octets) : Octets :=
    [' '].intercalate (ns.map fun n => Octets.padStart width (Octets.ofNat n)) ++
      (if name.isEmpty then [] else ' ' :: name)
  let mut sums := (counts o []).map fun _ => 0
  for file in if o.operands.isEmpty then [[]] else o.operands do
    match ← if file.isEmpty then readAll 0 else readOperand file with
    | .ok text =>
      sums := List.zipWith (· + ·) sums (counts o text)
      printLine (line (counts o text) file)
    | .error fault =>
      fail 1 (fileProblem (if file.isEmpty then "standard input".toList else file) fault)
      if file.isEmpty || fault = .isDirectory then printLine (line (sums.map fun _ => 0) file)
  if 1 < o.operands.length then printLine (line sums "total".toList)

/-! ## Bytes -/

def shownByte (style : String) (c : Char) : Octets :=
  let digits (base width : Nat) : Octets :=
    let ds := Nat.toDigits base c.toNat
    List.replicate (width - ds.length) '0' ++ ds
  match style with
  | "x1" => ' ' :: digits 16 2
  | "c" =>
    Octets.padStart 4 <| match c with
      | '\n' => "\\n".toList
      | '\t' => "\\t".toList
      | '\r' => "\\r".toList
      | c => if c.toNat = 0 then "\\0".toList else if ' ' ≤ c && c ≤ '~' then [c] else digits 8 3
  | _ => ' ' :: digits 8 3

/-- Lines of sixteen bytes, behind the place where they start unless `isBare` is set. -/
def dumped (isBare : Bool) (style : String) : Nat → Nat → Octets → Octets
  | 0, _, _ => []
  | fuel + 1, start, cs =>
    let ds := Nat.toDigits 8 start
    let place := if isBare then [] else List.replicate (7 - ds.length) '0' ++ ds
    let here := cs.take 16
    if here.isEmpty then if isBare then [] else place ++ ['\n']
    else place ++ here.flatMap (shownByte style) ++
      '\n' :: dumped isBare style fuel (start + here.length) (cs.drop 16)

def od : Program := fun _ words => do
  let o ← options "cbv" "At" 1 words
  let style := if o.has 'c' then "c" else String.ofList ((o.value? 't').getD "o1".toList)
  eachInput o.operands fileProblem 1 fun _ text =>
    print (dumped (o.value? 'A' = some ['n']) style (text.length + 1) 0 text)

end Diaporama.Rehearsal.Program
