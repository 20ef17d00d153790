import Diaporama.Rehearsal.Format
import Diaporama.Rehearsal.Program.Options
import Diaporama.Rehearsal.Program.Quoting

/-!
# Programs that print

Programs that write texts, numbers and parts of paths.
-/

namespace Diaporama.Rehearsal.Program

open Tool

/-! ## Texts -/

def echo : Program := fun _ words => do
  let isSwitch (w : Octets) : Bool := ["-n", "-e", "-ne", "-en", "-E"].contains (String.ofList w)
  let switches := (words.takeWhile isSwitch).flatten
  let text := [' '].intercalate (words.dropWhile isSwitch)
  let (text, ended) := if switches.contains 'e' then Format.unescaped text else (text, false)
  print text
  if !ended && !switches.contains 'n' then print ['\n']

def printf : Program := fun _ words => do
  match words with
  | [] => abortWithHint 1 "missing operand"
  | format :: words =>
    let (result, s) := Format.printed format words
    print s.texts.reverse.flatten
    for complaint in s.complaints.reverse do fail 1 complaint
    match result with
    | .ok () => return
    | .error problem => abort 1 problem

/-- As much as an endless program writes before nobody listens any more. -/
def endlessLines : Nat := 65536

def yes : Program := fun _ words => do
  let line := [' '].intercalate (if words.isEmpty then [['y']] else words)
  print ((List.replicate endlessLines (line ++ ['\n'])).flatten)
  flush
  throw (.signalled 13)

/-! ## Numbers -/

def sequence (step last : Int) : Nat → Int → List Int
  | 0, _ => []
  | fuel + 1, n =>
    if (0 < step && last < n) || (step < 0 && n < last) then []
    else n :: sequence step last fuel (n + step)

def seq : Program := fun _ words => do
  let number (text : Octets) : Tool Int := do
    match Octets.integer? text with
    | some n => return n
    | none => abortWithHint 1 ("invalid floating point argument: " ++ Quoting.always text)
  let (first, step, last) ← match ← words.mapM number with
    | [first, step, last] => pure (first, step, last)
    | [first, last] => pure (first, 1, last)
    | [last] => pure (1, 1, last)
    | _ => abortWithHint 1 "missing operand"
  for n in sequence step last (((last - first).natAbs) + 1) first do printLine (Octets.ofInt n)

/-! ## Paths -/

def stripSlashes (path : Octets) : Octets :=
  let stripped := Octets.dropEndWhile (· = '/') path
  if stripped.isEmpty && !path.isEmpty then ['/'] else stripped

/-- The last part of a path, without an ending unless nothing else would be left. -/
def baseName (ending path : Octets) : Octets :=
  let stripped := stripSlashes path
  let name := if stripped = ['/'] then stripped else ((Octets.split '/' stripped).getLast?).getD []
  if name ≠ ending && ending.reverse.isPrefixOf name.reverse then
    name.take (name.length - ending.length)
  else name

def directoryName (path : Octets) : Octets :=
  let stripped := stripSlashes path
  if stripped = ['/'] then stripped
  else
    let start := Octets.dropEndWhile (· ≠ '/') stripped
    if start.isEmpty then ['.'] else stripSlashes start

def basename : Program := fun _ words => do
  match if words.head? = some ['-', '-'] then words.drop 1 else words with
  | [] => abortWithHint 1 "missing operand"
  | [path] => printLine (baseName [] path)
  | [path, ending] => printLine (baseName ending path)
  | _ :: _ :: extra :: _ => abortWithHint 1 ("extra operand " ++ Quoting.always extra)

def dirname : Program := fun _ words => do
  let o ← options "" "" 1 words
  if o.operands.isEmpty then abortWithHint 1 "missing operand"
  for path in o.operands do printLine (directoryName path)

end Diaporama.Rehearsal.Program
