import Diaporama.Rehearsal.Program.Print
import Diaporama.Rehearsal.Script.Session

/-!
# Programs that run others

Programs that run another one in a changed environment or with words from their input, send it a
signal, or only give a status.
-/

namespace Diaporama.Rehearsal.Program

open Tool

/-! ## Statuses -/

def succeed : Program := fun _ _ => return

def failing : Program := fun _ _ => setStatus 1

/-- No time passes here, so that there is nothing to wait for. -/
def sleep : Program := fun _ words => do
  if words.isEmpty then abortWithHint 1 "missing operand"
  let isNumber (w : Octets) : Bool :=
    !w.isEmpty && w.all fun c => c.isDigit || c = '.' || c = 's'
  match words.find? (!isNumber ·) with
  | some w => abortWithHint 1 ("invalid time interval " ++ Quoting.always w)
  | none => return

/-- Calculations with two numbers; they fail if what they give is nothing or zero. -/
def expr : Program := fun _ words => do
  let answer ← match words with
    | [a, sign, b] =>
      match Octets.integer? a, Octets.integer? b with
      | some m, some n =>
        match String.ofList sign with
        | "+" => pure (Octets.ofInt (m + n))
        | "-" => pure (Octets.ofInt (m - n))
        | "*" => pure (Octets.ofInt (m * n))
        | "/" => if n = 0 then abort 2 "division by zero" else pure (Octets.ofInt (m.tdiv n))
        | "%" => if n = 0 then abort 2 "division by zero" else pure (Octets.ofInt (m.tmod n))
        | _ => abort 2 "syntax error"
      | _, _ => abort 2 "non-integer argument"
    | [word] => pure word
    | _ => abort 2 "syntax error"
  printLine answer
  if answer.isEmpty || answer = ['0'] then setStatus 1

/-! ## Changed environments -/

def withSetting (environment : List (Octets × Octets)) (name value : Octets) :
    List (Octets × Octets) :=
  if environment.any fun entry => entry.1 = name then
    environment.map fun entry => if entry.1 = name then (name, value) else entry
  else environment ++ [(name, value)]

/-- The options of `env` stand before the settings; those behind them belong to the program. -/
def env : Program := fun launch words => do
  let p ← process
  let rec settled : List Octets → List (Octets × Octets) → List Octets × List (Octets × Octets)
    | ['-', 'i'] :: words, _ => settled words []
    | ['-', 'u'] :: name :: words, found => settled words (found.filter fun entry => entry.1 ≠ name)
    | word :: words, found =>
      if word.contains '=' then
        settled words (withSetting found (word.takeWhile (· ≠ '='))
          ((word.dropWhile (· ≠ '=')).drop 1))
      else (word :: words, found)
    | [], found => ([], found)
  match settled words p.environment with
  | ([], environment) =>
    for (name, value) in environment do printLine (name ++ '=' :: value)
  | (name :: words, environment) =>
    become launch (fun p => { p with environment }) (name :: words) fun fault =>
      Quoting.always name ++ ": " ++ fault.description

/-! ## Signals -/

def kill : Program := fun _ words => do
  let (signal?, targets) := match words with
    | ['-', 's'] :: name :: targets => (Session.signal? 0 name, targets)
    | ('-' :: name) :: targets => (Session.signal? 0 name, targets)
    | targets => (some 15, targets)
  match signal? with
  | none => abort 1 "unknown signal name"
  | some signal =>
    if targets.isEmpty then abort 1 "not enough arguments"
    for word in targets do
      let p ← process
      match Octets.number? word with
      | none => fail 1 ("failed to parse argument: " ++ Quoting.always word)
      | some n =>
        if p.isRunning n then setProcess (p.send n signal)
        else fail 1 ("(" ++ String.ofList word ++ "): No such process")

/-! ## Words from the input -/

/-- The words of a text: blanks separate them, quotes and backslashes keep blanks together. Nothing
if a quote stays open. -/
def quotedWords : Nat → Option Octets → Octets → Option (List Octets)
  | 0, _, _ => none
  | _ + 1, current, [] => some (current.toList.map List.reverse)
  | fuel + 1, current, c :: cs =>
    let taken := current.getD []
    if Octets.isSpace c then (quotedWords fuel none cs).map (current.toList.map List.reverse ++ ·)
    else if c = '\'' || c = '"' then
      let inside := cs.takeWhile fun d => d ≠ c && d ≠ '\n'
      match cs.drop inside.length with
      | d :: rest =>
        if d = c then quotedWords fuel (some (inside.reverse ++ taken)) rest else none
      | [] => none
    else match c, cs with
      | '\\', d :: rest => quotedWords fuel (some (d :: taken)) rest
      | '\\', [] => quotedWords fuel (some taken) []
      | c, cs => quotedWords fuel (some (c :: taken)) cs

def replaceAll (part other : Octets) : Nat → Octets → Octets
  | 0, cs => cs
  | _ + 1, [] => []
  | fuel + 1, c :: cs =>
    if !part.isEmpty && part.isPrefixOf (c :: cs) then
      other ++ replaceAll part other fuel ((c :: cs).drop part.length)
    else c :: replaceAll part other fuel cs

def chunks (n : Nat) : Nat → List Octets → List (List Octets)
  | 0, _ => []
  | fuel + 1, ws => if ws.isEmpty then [] else ws.take (n + 1) :: chunks n fuel (ws.drop (n + 1))

/-- Runs a command for `xargs`, without an input of its own, and notes its status. -/
def runBatch (launch : Launch) (words : List Octets) : Tool Unit := do
  let quiet (p : Process) : Process :=
    match p.openPath .read "/dev/null".toList with
    | .ok (p, id) => p.setDescriptor 0 id
    | .error _ => p
  let name := String.ofList (words.headD [])
  match ← start launch quiet words with
  | .error fault => abort (startStatus fault) (name ++ ": " ++ fault.description)
  | .ok (.exited 0) => return
  | .ok (.exited 255) => abort 124 (name ++ ": exited with status 255; aborting")
  | .ok (.exited _) => setStatus 123
  | .ok (.signalled n) => abort 125 (name ++ ": terminated by signal " ++ toString n)

def xargs : Program := fun launch words => do
  let o ← match Options.ofWords ⟨['0', 'r'], ['n', 'I'], false⟩ words with
    | .ok o => pure o
    | .error problem => abortWithHint 1 problem
  let command := if o.operands.isEmpty then ["echo".toList] else o.operands
  let text := (← readAll 0).toOption.getD []
  let found? := if o.has '0' then some (Octets.closed (Char.ofNat 0) text)
    else if o.has 'I' then some ((Octets.lines text).map (·.dropWhile Octets.isBlank))
    else quotedWords (text.length + 1) none text
  match found?, o.value? 'I' with
  | none, _ => abort 1 "unmatched quote; by default quotes are special to xargs"
  | some found, some part =>
    for w in found do runBatch launch (command.map fun c => replaceAll part w (c.length + 1) c)
  | some found, none =>
    let most := ((o.value? 'n').bind Octets.number?).getD (found.length + 1)
    if found.isEmpty && !o.has 'r' then runBatch launch command
    for batch in chunks (most - 1) (found.length + 1) found do runBatch launch (command ++ batch)

end Diaporama.Rehearsal.Program
