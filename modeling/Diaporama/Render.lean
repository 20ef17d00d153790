import Diaporama.Host.Basic
import Diaporama.Job

/-!
# Rendering

A job is carried out in four steps, each only if the one before went well: the program answers when
asked for its version, the output is not there already if it may not be overwritten, its directory
is created, and the program runs the job. A recorder takes jobs without carrying them out.
-/

namespace Diaporama

structure Renderer where
  program : FilePath
  overwrite : Bool

namespace Renderer

variable {m : Type → Type} [Monad m] [Host m]

def usual : Renderer :=
  ⟨.ofString "ffmpeg", true⟩

def arguments (r : Renderer) (j : Job Float) : List String :=
  [if r.overwrite then "-y" else "-n", "-loglevel", "error"] ++ j.args

def versionArguments : List String := ["-version"]

/-- The program can be started and ends well when it is asked for its version. -/
def answers (r : Renderer) : m Bool := do
  match ← Host.run r.program versionArguments with
  | .ok ended => return ended.status.isSuccess
  | .error _ => return false

def checkProgram (r : Renderer) : ExceptT (Error Float) m Unit := do
  if ← (r.answers : m Bool) then return else throw (.noProgram r.program)

def checkOutput (r : Renderer) (output : FilePath) : ExceptT (Error Float) m Unit := do
  if r.overwrite then return
  if ← (Host.pathExists output : m Bool) then throw (.outputExists output)

/-- Creates the directory of a file; a file in the current directory needs none. -/
def ensureParent (path : FilePath) : ExceptT (Error Float) m Unit := do
  match path.parent? with
  | none => return
  | some directory =>
    if directory.isEmpty then return
    match ← (Host.createDirectories directory : m (Except OsFault Unit)) with
    | .ok () => return
    | .error fault => throw (.noDirectory directory fault)

def runJob (r : Renderer) (j : Job Float) : ExceptT (Error Float) m Unit := do
  match ← (Host.run r.program (r.arguments j) : m (Except RunFault Exit)) with
  | .error fault => throw (.notRun r.program fault)
  | .ok ended =>
    if ended.status.isSuccess then return
    else throw (.failed ended.status (Text.trim (Text.lossy ended.errors)))

def execute (r : Renderer) (j : Job Float) : ExceptT (Error Float) m FilePath := do
  r.checkProgram
  r.checkOutput j.output
  ensureParent j.output
  r.runJob j
  return j.output

end Renderer

/-- The jobs that were handed over so far, the last one at the end. -/
structure Recorder where
  jobs : List (Job Float)

namespace Recorder

def empty : Recorder := ⟨[]⟩

def execute (r : Recorder) (j : Job Float) : FilePath × Recorder :=
  (j.output, ⟨r.jobs ++ [j]⟩)

end Recorder

end Diaporama
