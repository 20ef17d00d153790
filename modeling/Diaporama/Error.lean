import Diaporama.FilePath
import Diaporama.Graph.Violation
import Diaporama.Json.Fault
import Diaporama.Timeline

/-!
# Errors

Every way in which assembling, reading or rendering a slideshow fails, by its cause. The kind of an
error and the wording follow from the cause.
-/

namespace Diaporama

inductive Document where
  | config
  | request
  deriving DecidableEq, Repr

def Document.name : Document → String
  | config => "compile config"
  | request => "slideshow request"

/-- Which path of a slideshow is meant. -/
inductive PathUse where
  | image (index : Nat)
  | audio
  | output
  deriving DecidableEq, Repr

def PathUse.name : PathUse → String
  | image index => "image " ++ toString index
  | audio => "audio"
  | output => "output"

inductive ExitStatus where
  | exited (code : Nat)
  | signalled (signal : Nat)
  deriving DecidableEq, Repr

namespace ExitStatus

def isSuccess (s : ExitStatus) : Bool :=
  s == exited 0

/-- The names of the signals; those without one are numbered only. -/
def signalName? (signal : Nat) : Option String :=
  [(1, "SIGHUP"), (2, "SIGINT"), (3, "SIGQUIT"), (4, "SIGILL"), (5, "SIGTRAP"), (6, "SIGABRT"),
    (7, "SIGBUS"), (8, "SIGFPE"), (9, "SIGKILL"), (10, "SIGUSR1"), (11, "SIGSEGV"),
    (12, "SIGUSR2"), (13, "SIGPIPE"), (14, "SIGALRM"), (15, "SIGTERM"), (16, "SIGSTKFLT"),
    (17, "SIGCHLD"), (18, "SIGCONT"), (19, "SIGSTOP"), (20, "SIGTSTP"), (21, "SIGTTIN"),
    (22, "SIGTTOU"), (23, "SIGURG"), (24, "SIGXCPU"), (25, "SIGXFSZ"), (26, "SIGVTALRM"),
    (27, "SIGPROF"), (28, "SIGWINCH"), (29, "SIGIO"), (30, "SIGPWR"), (31, "SIGSYS")].lookup signal

def message : ExitStatus → String
  | exited code => "exit status: " ++ toString code
  | signalled signal =>
    "signal: " ++ toString signal ++
      match signalName? signal with
      | some name => " (" ++ name ++ ")"
      | none => ""

end ExitStatus

/-- What kept a program from being run to its end. -/
inductive RunFault where
  | notStarted (fault : OsFault)
  | noErrorPipe
  | notAwaited (fault : OsFault)
  | readerLost
  | errorsUnread (fault : OsFault)
  deriving DecidableEq, Repr

def RunFault.message (program : FilePath) : RunFault → String
  | notStarted fault => "failed to spawn '" ++ program.display ++ "': " ++ fault.message
  | noErrorPipe => "failed to open ffmpeg stderr (unexpected)"
  | notAwaited fault => "failed to wait for ffmpeg to finish: " ++ fault.message
  | readerLost => "ffmpeg stderr drain thread panicked"
  | errorsUnread fault => "ffmpeg stderr read failed: " ++ fault.message

inductive Error (T : Type) where
  | noImages
  | blendDuration (value : T)
  | photoDuration (value : T)
  | config (fault : Config.Fault T)
  | canvas (fault : Canvas.Fault)
  | emptyOutput
  | notText (use : PathUse) (path : FilePath)
  | outputExists (path : FilePath)
  | unopened (document : Document) (path : FilePath) (fault : OsFault)
  | unread (document : Document) (fault : Json.Fault)
  | graph (violation : Violation)
  | noProgram (program : FilePath)
  | notRun (program : FilePath) (fault : RunFault)
  | failed (status : ExitStatus) (output : String)
  | noDirectory (directory : FilePath) (fault : OsFault)

inductive ErrorKind where
  | inputCount
  | blendDuration
  | validation
  | graph
  | document
  | execution
  | other
  deriving DecidableEq, Repr

def ErrorKind.heading : ErrorKind → String
  | inputCount => "invalid input count: "
  | blendDuration => "invalid transition duration: "
  | validation => "validation error: "
  | graph => "filter graph error: "
  | document => "serialization error: "
  | execution => "execution error: "
  | other => ""

namespace Error

variable {T : Type}

def kind : Error T → ErrorKind
  | noImages => .inputCount
  | blendDuration _ => .blendDuration
  | photoDuration _ | config _ | canvas _ | emptyOutput | notText _ _ | outputExists _
  | unopened _ _ _ => .validation
  | unread _ _ => .document
  | graph _ => .graph
  | noProgram _ | notRun _ _ | failed _ _ => .execution
  | noDirectory _ _ => .other

def notPositive (name : String) (value : Float) : String :=
  name ++ " must be finite and > 0 (got " ++ Seconds.shown value ++ ")"

def configDetail : Config.Fault Float → String
  | .photo value => notPositive "photo_duration_s" value
  | .blank field => field ++ " must be non-empty"
  | .crf => "encoder.crf must be in 0..=" ++ toString Config.maxCrf

def detail : Error Float → String
  | noImages => "at least one image source is required"
  | blendDuration value => Seconds.shown value ++ " (must be finite and > 0)"
  | photoDuration value => notPositive "photo duration" value
  | config fault => configDetail fault
  | canvas fault => fault.message
  | emptyOutput => "output path must be non-empty"
  | notText use path => use.name ++ " path is not valid UTF-8: " ++ path.display
  | outputExists path => "output file '" ++ path.display ++ "' already exists"
  | unopened document path fault =>
    "open " ++ document.name ++ " '" ++ path.display ++ "': " ++ fault.message
  | unread document fault => "parse " ++ document.name ++ " JSON: " ++ fault.message
  | graph violation => violation.message
  | noProgram program => "'" ++ program.display ++ "' is required for rendering, but was not found"
  | notRun program fault => fault.message program
  | failed status output => "ffmpeg exited with status " ++ status.message ++ ": " ++ output
  | noDirectory directory _ => "failed to create output directory '" ++ directory.display ++ "'"

def message (e : Error Float) : String :=
  e.kind.heading ++ e.detail

/-- What lies behind an error that only names the step that failed. -/
def causes : Error T → List String
  | noDirectory _ fault => [fault.message]
  | _ => []

def ofTimeline : Timeline.Fault T → Error T
  | .blend value => blendDuration value
  | .photo value => photoDuration value

end Error

end Diaporama
