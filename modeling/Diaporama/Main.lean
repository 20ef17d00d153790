import Diaporama.CommandLine.Run

/-!
# The program

Files are read and directories created through the system. No other program is started from here:
`compile` prints the job for whatever runs it, and `render` reports that its encoder is missing.
-/

namespace Diaporama

def OsFault.ofError : IO.Error → OsFault
  | .noFileOrDirectory _ _ _ => .notFound
  | .noSuchThing _ _ _ => .notFound
  | .permissionDenied _ _ _ => .permissionDenied
  | .alreadyExists _ _ _ => .alreadyExists
  | .inappropriateType _ _ _ => .notDirectory
  | e => ⟨toString e, none⟩

def readSystemFile (path : String) : IO FileReading := do
  match ← (IO.FS.Handle.mk path .read).toBaseIO with
  | .error e => return .unopened (.ofError e)
  | .ok handle =>
    match ← handle.readBinToEnd.toBaseIO with
    | .ok content => return .bytes content
    | .error _ => return .broken .isDirectory

instance : Host IO where
  run _ _ := return .error (.notStarted .notFound)
  pathExists p := do
    match p.text? with
    | none => return false
    | some path => return (← (IO.FS.Handle.mk path .read).toBaseIO).isOk
  createDirectories p := do
    match p.text? with
    | none => return .error .notFound
    | some path => return (← (IO.FS.createDirAll path).toBaseIO).mapError OsFault.ofError
  readFile p := do
    match p.text? with
    | none => return .unopened .notFound
    | some path => readSystemFile path

def Event.line (e : Event Float) : String :=
  "WARN " ++ e.text ++ String.join (e.fields.map fun (name, value) => " " ++ name ++ "=" ++ value)

end Diaporama

open Diaporama in
def main (args : List String) : IO UInt32 := do
  let report ← CommandLine.run (m := IO) (args.map String.toUTF8)
  for e in report.log do
    if e.level == .warn then IO.eprintln e.line
  IO.print report.output
  IO.eprint report.errors
  return report.status.toUInt32
