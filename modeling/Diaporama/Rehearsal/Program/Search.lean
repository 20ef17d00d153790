import Diaporama.Rehearsal.Program.Lines
import Diaporama.Rehearsal.Regex

/-!
# Searching

The program that looks for lines that match. Which lines are selected and what is shown of them
depends on options.
-/

namespace Diaporama.Rehearsal.Program

open Tool

/-- The matches of expressions in a line that are not empty, from a place on. -/
def matchesIn (rs : List Regex) (line : Array Char) : Nat → Nat → List Octets
  | 0, _ => []
  | fuel + 1, i =>
    let found := rs.filterMap fun r => r.find? line i
    match found.foldl (fun (best : Option Match) m =>
        if best.any fun b => b.start < m.start || b.start = m.start && m.stop ≤ b.stop then best
        else some m) none with
    | none => []
    | some m =>
      if m.stop = m.start then matchesIn rs line fuel (m.start + 1)
      else m.group line 0 :: matchesIn rs line fuel m.stop

def selects (o : Options) (rs : List Regex) (line : Octets) : Bool :=
  let s := line.toArray
  let isMatch (r : Regex) : Bool :=
    if o.has 'x' then (r.matchAt? s 0).any fun m => m.stop = s.size else (r.find? s 0).isSome
  rs.any isMatch != o.has 'v'

/-- Shows what is asked for of a text, `name` standing before its lines; gives how many lines were
selected. -/
def searchText (o : Options) (rs : List Regex) (name : Octets) (isNamed : Bool) (text : Octets) :
    Tool Nat := do
  let most := ((o.value? 'm').bind Octets.number?).getD text.length.succ
  let selected := ((Octets.lines text).zipIdx.filter fun (line, _) => selects o rs line).take most
  let heading := if isNamed then name ++ [':'] else []
  if o.has 'q' then pure ()
  else if o.has 'l' then if !selected.isEmpty then printLine name
  else if o.has 'c' then printLine (heading ++ Octets.ofNat selected.length)
  else
    for (line, i) in selected do
      let heading := heading ++ if o.has 'n' then Octets.ofNat (i + 1) ++ [':'] else []
      if !o.has 'o' then printLine (heading ++ line)
      else
        for part in matchesIn rs line.toArray (line.length + 1) 0 do printLine (heading ++ part)
  return selected.length

def searchAs (isExtended : Bool) : Program := fun _ words => do
  let o ← options "EFGHhicnoqslvx" "em" 2 words
  let (patterns, files) ← match o.values 'e', o.operands with
    | [], [] => abort 2 "no pattern"
    | [], pattern :: files => pure ([pattern], files)
    | patterns, files => pure (patterns, files)
  let read (text : Octets) : Except String Regex :=
    if o.has 'F' then .ok (if o.has 'i' then (Regex.literally text).uncased else Regex.literally text)
    else Regex.ofText (isExtended || o.has 'E') (o.has 'i') text
  match (patterns.flatMap (Octets.split '\n')).mapM read with
  | .error problem => abort 2 problem
  | .ok rs =>
    let isNamed := o.has 'H' || 1 < files.length && !o.has 'h'
    let mut count := 0
    for file in if files.isEmpty then [['-']] else files do
      let name := if file = ['-'] then "(standard input)".toList else file
      match ← readOperand file with
      | .ok text => count := count + (← searchText o rs name isNamed text)
      | .error fault =>
        if !o.has 's' then complain (String.ofList name ++ ": " ++ fault.description)
        setStatus 2
    if (← get).status = 0 || o.has 'q' && 0 < count then setStatus (if 0 < count then 0 else 1)

def grep : Program := searchAs false

def egrep : Program := searchAs true

end Diaporama.Rehearsal.Program
