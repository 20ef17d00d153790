import Diaporama.Config
import Diaporama.FilePath
import Diaporama.Graph.Basic
import Diaporama.Shell.Word

/-!
# Jobs

A job is everything the encoder is told: its inputs in order, the filter graph over them, which
streams go into the output, the encoder settings and the output file. Its arguments name these one
after the other.
-/

namespace Diaporama

inductive Input (T : Type) where
  /-- A picture, looped for the given time. -/
  | still (path : FilePath) (hold : T)
  | audio (path : FilePath)
  deriving BEq

namespace Input

variable {T : Type}

def isStill : Input T → Bool
  | still .. => true
  | audio _ => false

def path : Input T → FilePath
  | still path _ => path
  | audio path => path

def args : Input Float → List String
  | still path hold => ["-loop", "1", "-t", Seconds.text hold, "-i", path.display]
  | audio path => ["-i", path.display]

end Input

/-- The link whose stream becomes the picture of every assembled video. -/
def outputLink : String := "outv"

structure Job (T : Type) where
  inputs : List (Input T)
  graph : Graph T
  /-- The link that carries the finished picture. -/
  videoLink : String
  /-- The number of the input whose sound is mapped, if any is. -/
  audio : Option Nat
  encoder : Encoder
  output : FilePath
  canvas : Canvas
  duration : T
  deriving BEq

namespace Job

variable {T : Type}

def hasAudio (j : Job T) : Bool :=
  j.audio.isSome

def stillCount (j : Job T) : Nat :=
  j.inputs.countP Input.isStill

def audioMap : Option Nat → List String
  | some input => ["-map", toString input ++ ":a"]
  | none => []

def videoArgs (e : Encoder) : List String :=
  ["-c:v", e.videoCodec, "-preset", e.preset, "-crf", toString e.crf, "-pix_fmt", e.pixels]

/-- The sound is encoded only where one is mapped, and then ends with the shorter stream. -/
def audioArgs (e : Encoder) : Option Nat → List String
  | some _ => ["-c:a", e.audioCodec, "-b:a", e.audioBitrate, "-shortest"]
  | none => []

/-- The arguments of the encoder, without its name. -/
def args (j : Job Float) : List String :=
  j.inputs.flatMap Input.args ++ ["-filter_complex", j.graph.expression] ++
    ["-map", "[" ++ j.videoLink ++ "]"] ++ audioMap j.audio ++ videoArgs j.encoder ++
    audioArgs j.encoder j.audio ++ [j.output.display]

def commandLine (j : Job Float) : String :=
  Shell.line j.args

end Job

end Diaporama
