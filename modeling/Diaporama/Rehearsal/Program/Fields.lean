import Diaporama.Rehearsal.Format
import Diaporama.Rehearsal.Program.Lines

/-!
# Characters and fields

Programs that choose fields of lines, put characters in the place of others, and bring lines in
order.
-/

namespace Diaporama.Rehearsal.Program

open Tool

/-! ## Cutting -/

/-- The places of a range such as `3`, `2-4` or `5-`, the last one open at its end. -/
def range? (text : Octets) : Option (Nat × Option Nat) :=
  match (Octets.split '-' text).map fun part => (part.isEmpty, Octets.number? part) with
  | [(_, some n)] => some (n, some n)
  | [(_, some low), (true, _)] => some (low, none)
  | [(true, _), (_, some high)] => some (1, some high)
  | [(_, some low), (_, some high)] => if low ≤ high then some (low, some high) else none
  | _ => none

def cut : Program := fun _ words => do
  let o ← options "s" "bcfd" 1 words
  match o.given.filter fun entry => "bcf".toList.contains entry.1 with
  | [(kind, list)] =>
    match (Octets.split ',' list).mapM range? with
    | none => abortWithHint 1 ("invalid range " ++ Quoting.always list)
    | some ranges =>
      let chosen {α : Type} (parts : List α) : List α :=
        (parts.zipIdx.filter fun (_, i) =>
          ranges.any fun (low, high) => low ≤ i + 1 && high.all (i + 1 ≤ ·)).map (·.1)
      let delimiter := ((o.value? 'd').bind List.head?).getD '\t'
      eachInput o.operands fileProblem 1 fun _ text =>
        for line in Octets.lines text do
          if kind ≠ 'f' then printLine (chosen line)
          else if line.contains delimiter then
            printLine ([delimiter].intercalate (chosen (Octets.split delimiter line)))
          else if !o.has 's' then printLine line
  | _ => abortWithHint 1 "you must specify a list of bytes, characters, or fields"

/-! ## Translating -/

/-- The character at the start of a set, which may be an escape, and what follows. -/
def setChar (cs : Octets) : Char × Octets :=
  match cs with
  | '\\' :: rest => Format.escapeAt rest
  | c :: rest => (c, rest)
  | [] => (' ', [])

def allChars : Octets :=
  (List.range 256).map Char.ofNat

/-- The characters of a set in order: single ones, ranges, and classes by their names. -/
def setMembers : Nat → Octets → Octets
  | 0, _ => []
  | _ + 1, [] => []
  | fuel + 1, '[' :: ':' :: rest =>
    let name := rest.takeWhile (· ≠ ':')
    allChars.filter (Octets.isInClass (String.ofList name)) ++
      setMembers fuel (rest.drop (name.length + 2))
  | fuel + 1, cs =>
    match setChar cs with
    | (low, '-' :: high :: rest) =>
      let (high, rest) := setChar (high :: rest)
      allChars.filter (fun c => low ≤ c && c ≤ high) ++ setMembers fuel rest
    | (c, rest) => c :: setMembers fuel rest

def squeezed (set : Octets) : Octets → Octets
  | c :: d :: rest =>
    if c = d && set.contains c then squeezed set (d :: rest) else c :: squeezed set (d :: rest)
  | cs => cs

def tr : Program := fun _ words => do
  let o ← match Options.ofWords ⟨"cCds".toList, [], false⟩ words with
    | .ok o => pure o
    | .error problem => abortWithHint 1 problem
  let sets := o.operands.map fun text => setMembers (text.length + 1) text
  let members := sets.headD []
  let one := if o.has 'c' || o.has 'C' then allChars.filter (!members.contains ·) else members
  let text := (← readAll 0).toOption.getD []
  match o.has 'd', sets with
  | _, [] => abortWithHint 1 "missing operand"
  | true, _ => print (text.filter (!one.contains ·))
  | false, [_] =>
    if o.has 's' then print (squeezed one text)
    else abortWithHint 1 ("missing operand after " ++ Quoting.always (o.operands.headD []))
  | false, _ :: two :: _ =>
    -- the last character of the second set stands for all that it has too few
    let pairs := one.zip (two ++ List.replicate (one.length - two.length) (two.getLast?.getD ' '))
    let table := pairs.foldl (fun (a : Array Char) p => a.setIfInBounds p.1.toNat p.2) allChars.toArray
    let changed := text.map fun c => table[c.toNat]?.getD c
    print (if o.has 's' then squeezed two changed else changed)

/-! ## Sorting -/

structure Key where
  start : Nat
  stop : Option Nat
  flags : Octets

namespace Key

/-- A key such as `2,4nr`; without letters of its own it has the general ones. -/
def ofText? (general text : Octets) : Option Key :=
  let number := text.takeWhile Char.isDigit
  let rest := text.drop number.length
  let (stop?, letters) := match rest with
    | ',' :: rest => (Octets.number? (rest.takeWhile Char.isDigit), rest.dropWhile Char.isDigit)
    | rest => (none, rest)
  if number.isEmpty || Octets.number number = 0 then none
  else some ⟨Octets.number number - 1, stop?, if letters.isEmpty then general else letters⟩

/-- The fields of a line with what separates them; without a separator a field starts with its
blanks. -/
def fields (separator : Option Char) (line : Octets) : List Octets :=
  match separator with
  | some c => (Octets.split c line).map (· ++ [c])
  | none => line.splitBy fun a b => !(Octets.isBlank b && !Octets.isBlank a)

def part (k : Key) (separator : Option Char) (line : Octets) : Octets :=
  let all := fields separator line
  ((all.take (k.stop.getD all.length)).drop k.start).flatten

end Key

/-- The number at the start of a text: its sign, its digits and its decimals. -/
def plainNumber (cs : Octets) : Bool × Octets × Octets :=
  let cs := cs.dropWhile Octets.isBlank
  let digits := if cs.head? = some '-' then cs.drop 1 else cs
  let whole := digits.takeWhile Char.isDigit
  let decimals := match digits.drop whole.length with
    | '.' :: ds => ds.takeWhile Char.isDigit
    | _ => []
  let whole := whole.dropWhile (· = '0')
  let decimals := Octets.dropEndWhile (· = '0') decimals
  (cs.head? = some '-' && !(whole ++ decimals).isEmpty, whole, decimals)

def compareNumbers (a b : Octets) : Ordering :=
  let (isNegative, wholeA, decimalsA) := plainNumber a
  let (isOtherNegative, wholeB, decimalsB) := plainNumber b
  let size := (compare wholeA.length wholeB.length).then
    ((Octets.order wholeA wholeB).then (Octets.order decimalsA decimalsB))
  if isNegative = isOtherNegative then if isNegative then size.swap else size
  else if isNegative then .lt else .gt

def compareParts (flags : Octets) (a b : Octets) : Ordering :=
  let cased (cs : Octets) : Octets := if flags.contains 'f' then cs.map Char.toUpper else cs
  let trimmed (cs : Octets) : Octets :=
    if flags.contains 'b' then cs.dropWhile Octets.isBlank else cs
  let found := if flags.contains 'n' then compareNumbers a b
    else Octets.order (cased (trimmed a)) (cased (trimmed b))
  if flags.contains 'r' then found.swap else found

def firstOfRuns (same : Octets → Octets → Bool) (lines : List Octets) : List Octets :=
  (lines.splitBy same).filterMap List.head?

def sort : Program := fun _ words => do
  let o ← options "bfnrsu" "ktoS" 2 words
  let general := (o.given.map (·.1)).filter "bfnr".toList.contains
  match (o.values 'k').mapM (Key.ofText? general) with
  | none => abort 2 "invalid field specification"
  | some keys =>
    let keys := if keys.isEmpty then [⟨0, none, general⟩] else keys
    let separator := (o.value? 't').bind List.head?
    let byKeys (a b : Octets) : Ordering := keys.foldl (fun found k =>
      found.then (compareParts k.flags (k.part separator a) (k.part separator b))) .eq
    let last (a b : Octets) : Ordering :=
      if o.has 's' || o.has 'u' then .eq
      else if general.contains 'r' then Octets.order b a else Octets.order a b
    let mut all : List Octets := []
    for file in if o.operands.isEmpty then [['-']] else o.operands do
      match ← readOperand file with
      | .ok text => all := all ++ Octets.lines text
      | .error fault => abort 2 ((if fault = .isDirectory then "read failed: " else "cannot read: ") ++
          fileProblem file fault)
    let sorted := all.mergeSort fun a b => (byKeys a b).then (last a b) != .gt
    let shown := Octets.ofLines
      (if o.has 'u' then firstOfRuns (fun a b => byKeys a b == .eq) sorted else sorted)
    match o.value? 'o' with
    | none => print shown
    | some file =>
      match ← openFile .write file with
      | .ok id => writeFile id shown
      | .error fault => abort 2 ("open failed: " ++ fileProblem file fault)

/-! ## Runs of lines -/

def uniq : Program := fun _ words => do
  let o ← options "cdui" "" 1 words
  let key (line : Octets) : Octets := if o.has 'i' then line.map Char.toLower else line
  eachInput o.operands fileProblem 1 fun _ text =>
    for run in (Octets.lines text).splitBy fun a b => key a == key b do
      let isLeftOut := o.has 'd' && run.length = 1 || o.has 'u' && 1 < run.length
      let count := if o.has 'c' then Octets.padStart 7 (Octets.ofNat run.length) ++ [' '] else []
      if !isLeftOut then printLine (count ++ run.headD [])

end Diaporama.Rehearsal.Program
