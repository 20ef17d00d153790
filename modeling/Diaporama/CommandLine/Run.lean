import Diaporama.Assembly
import Diaporama.CommandLine.Arguments
import Diaporama.Document.File
import Diaporama.Document.Job
import Diaporama.Render

/-!
# Running a command line

A command compiles its slideshow first: the configuration is read, then the request is read or put
together from flags, then it is assembled. `compile` prints the job in one of four forms, `render`
carries it out. A failure is reported with what was being done and everything that caused it.
-/

namespace Diaporama.CommandLine

/-- What a program leaves behind: its status and the texts it wrote. -/
structure Report where
  status : Nat
  output : String
  errors : String
  log : List (Event Float)

/-- A failure: what was being done, then its causes from the outside in. -/
structure Failure where
  summary : String
  causes : List String

namespace Failure

def ofError (e : Error Float) : Failure :=
  ⟨e.message, e.causes⟩

def within (step : String) (e : Error Float) : Failure :=
  ⟨step, e.message :: e.causes⟩

/-- Lines with `first` before the first one and `next` before the others. -/
def indented (first next : String) (text : String) : String :=
  first ++ (("\n" ++ next).intercalate (text.splitOn "\n")) ++ "\n"

def numbered (n : Nat) (text : String) : String :=
  let digits := toString n
  let margin := String.ofList (List.replicate (5 - digits.length) ' ')
  indented (margin ++ digits ++ ": ") "       " text

def causesHeading : String := "\nCaused by:\n"

/-- One cause stands by itself, several are numbered. -/
def causesText : List String → String
  | [] => ""
  | [cause] => causesHeading ++ indented "    " "    " cause
  | causes => causesHeading ++ String.join (causes.zipIdx.map fun (cause, n) => numbered n cause)

def text (f : Failure) : String :=
  "Error: " ++ f.summary ++ "\n" ++ causesText f.causes

end Failure

def programName : String := "reelgraph"

def versionText : String := programName ++ " 0.1.0\n"

namespace Flags

/-! ### The values of the style flags where they are left out -/

def usualTransition : String := "dissolve"

def usualDuration : Float := 0.8

def usualAspect : String := "16:9"

def settings (f : Flags) : Settings Float where
  transition := TransitionKind.select (f.transition.getD usualTransition)
  duration := f.duration.getD usualDuration
  aspect := AspectRatio.select (f.aspect.getD usualAspect)

def notices (f : Flags) : List Notice :=
  TransitionKind.notices (f.transition.getD usualTransition) ++
    AspectRatio.notices (f.aspect.getD usualAspect)

end Flags

structure Attempt (α : Type) where
  log : List (Event Float)
  result : Except Failure α

namespace Attempt

variable {α β : Type}

def ofTraced (fail : Error Float → Failure) (t : Traced Float α) : Attempt α :=
  ⟨t.log, t.result.mapError fail⟩

/-- Goes on with a result. -/
def andThen (a : Attempt α) (f : α → Attempt β) : Attempt β :=
  match a.result with
  | .ok x => ⟨a.log ++ (f x).log, (f x).result⟩
  | .error failure => ⟨a.log, .error failure⟩

end Attempt

section

variable {m : Type → Type} [Monad m] [Host m]

def readConfig (f : Flags) : m (Except Failure (Config.Checked Float)) := do
  match f.config with
  | none => return .ok .usual
  | some path =>
    return (← Config.load path).mapError
      (.within ("load " ++ Document.config.name ++ " '" ++ path.display ++ "'"))

def readRequest (f : Flags) : m (Attempt (Request Float)) := do
  match f.request, f.out with
  | some path, _ =>
    return .ofTraced (.within ("load " ++ Document.request.name ++ " '" ++ path.display ++ "'"))
      (← Request.load path)
  | none, none => return ⟨[], .error ⟨"--out is required unless --request is given", []⟩⟩
  | none, some output =>
    return ⟨f.notices.map .notice, .ok ⟨f.images.map .ofPath, f.audio, f.settings, output⟩⟩

def compileJob (f : Flags) : m (Attempt (Job Float)) := do
  match ← readConfig f with
  | .error failure => return ⟨[], .error failure⟩
  | .ok config =>
    return (← readRequest f).andThen fun request =>
      .ofTraced Failure.ofError (request.assemble config)

def Report.ofFailure (log : List (Event Float)) (failure : Failure) : Report :=
  ⟨1, "", failure.text, log⟩

def formatted (j : Job Float) : OutputFormat → Except WriteFault String
  | .shell => .ok ("ffmpeg " ++ j.commandLine ++ "\n")
  | .args => .ok (String.join (j.args.map (· ++ "\n")))
  | .json => j.document.map (· ++ "\n")
  | .graph => .ok (j.graph.expression ++ "\n")

def compile (f : Flags) : m Report := do
  let attempt ← compileJob f
  match attempt.result with
  | .error failure => return .ofFailure attempt.log failure
  | .ok job =>
    match formatted job (f.format.getD .shell) with
    | .ok text => return ⟨0, text, "", attempt.log⟩
    | .error fault => return .ofFailure attempt.log ⟨fault.message, []⟩

def render (f : Flags) : m Report := do
  let attempt ← compileJob f
  match attempt.result with
  | .error failure => return .ofFailure attempt.log failure
  | .ok job =>
    let renderer : Renderer := ⟨f.program.getD Renderer.usual.program, !f.keepsOutput⟩
    match ← (renderer.execute job).run with
    | .ok written =>
      return ⟨0, "", "wrote " ++ written.display ++ "\n", attempt.log⟩
    | .error e =>
      return .ofFailure attempt.log (.within ("render '" ++ job.output.display ++ "'") e)

def run (args : List ByteArray) : m Report := do
  match parse? args with
  | none => return ⟨2, "", "", []⟩
  | some .version => return ⟨0, versionText, "", []⟩
  | some .help => return ⟨0, "", "", []⟩
  | some (.run .compile flags) => compile flags
  | some (.run .render flags) => render flags

end

end Diaporama.CommandLine
