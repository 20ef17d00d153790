import Diaporama.Seconds
import Diaporama.Text.Blank

/-!
# Configuration

What stays the same from slideshow to slideshow: how long each picture is held, what the encoder is
told, and where the blends of the fade style start. A configuration is used only after it passed
its check, which reports the first fault.
-/

namespace Diaporama

inductive FadeOffsets where
  /-- Each blend starts one picture after the one before. -/
  | accumulate
  /-- All blends start after the first picture. -/
  | constant
  deriving DecidableEq, Repr, Inhabited

namespace FadeOffsets

def all : List FadeOffsets := [accumulate, constant]

def name : FadeOffsets → String
  | accumulate => "accumulate"
  | constant => "constant"

def ofName? (s : String) : Option FadeOffsets :=
  all.find? fun mode => mode.name == s

theorem ofName?_name (mode : FadeOffsets) : ofName? mode.name = some mode := by
  cases mode <;> decide

end FadeOffsets

structure Encoder where
  videoCodec : String
  preset : String
  crf : UInt8
  pixels : String
  audioCodec : String
  audioBitrate : String
  deriving DecidableEq, Repr

def Encoder.usual : Encoder where
  videoCodec := "libx264"
  preset := "medium"
  crf := 23
  pixels := "yuv420p"
  audioCodec := "aac"
  audioBitrate := "192k"

structure Config (T : Type) where
  photo : T
  encoder : Encoder
  fadeOffsets : FadeOffsets
  deriving BEq, Repr

namespace Config

variable {T : Type}

def usual : Config Float where
  photo := 2.0
  encoder := .usual
  fadeOffsets := .accumulate

instance : Inhabited (Config Float) := ⟨usual⟩

inductive Fault (T : Type) where
  | photo (value : T)
  | blank (field : String)
  | crf
  deriving DecidableEq, Repr

def maxCrf : UInt8 := 51

/-- The texts of the encoder settings with the names they are reported under. -/
def texts (c : Config T) : List (String × String) :=
  [("encoder.video_codec", c.encoder.videoCodec), ("encoder.preset", c.encoder.preset),
    ("encoder.pix_fmt", c.encoder.pixels), ("encoder.audio_codec", c.encoder.audioCodec),
    ("encoder.audio_bitrate", c.encoder.audioBitrate)]

def check [Seconds T] (c : Config T) : Except (Fault T) Unit :=
  if !Seconds.isPositive c.photo then .error (.photo c.photo)
  else match c.texts.find? fun entry => entry.2.toList.all Text.isBlank with
    | some entry => .error (.blank entry.1)
    | none => if maxCrf < c.encoder.crf then .error .crf else .ok ()

/-- A configuration that passed its check. -/
structure Checked (T : Type) [Seconds T] where
  config : Config T
  passed : config.check = .ok ()

def checked? [Seconds T] (c : Config T) : Except (Fault T) (Checked T) :=
  match h : c.check with
  | .ok () => .ok ⟨c, h⟩
  | .error fault => .error fault

end Config

end Diaporama
