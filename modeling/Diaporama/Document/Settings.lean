import Diaporama.Config
import Diaporama.Error
import Diaporama.Json.Record
import Diaporama.Json.Value
import Diaporama.Request
import Diaporama.Traced

/-!
# The documents a user writes

Settings, pictures, configurations and requests as JSON: how each is read, with its defaults and
second names, and how it is written. Selectors are read leniently and leave notices.
-/

namespace Diaporama

open Json (Reader RecordField Record Value)

inductive WriteFault where
  | pathWithoutText
  deriving DecidableEq, Repr

def WriteFault.message : WriteFault → String
  | pathWithoutText => "path contains invalid UTF-8 characters"

namespace FilePath

def reader : Reader FilePath :=
  return ofString (← Reader.text "path string")

def toValue (p : FilePath) : Except WriteFault Value :=
  match p.text? with
  | some s => .ok (.string s)
  | none => .error .pathWithoutText

end FilePath

def TransitionKind.reader : Reader TransitionKind := do
  let s ← Reader.text "a string"
  Reader.notice (TransitionKind.notices s)
  return TransitionKind.select s

def AspectRatio.reader : Reader AspectRatio := do
  let s ← Reader.text "a string"
  Reader.notice (AspectRatio.notices s)
  return AspectRatio.select s

def FadeOffsets.reader : Reader FadeOffsets :=
  Reader.variant (FadeOffsets.all.map FadeOffsets.name) FadeOffsets.ofName?

namespace Canvas

structure Draft where
  width : Option UInt32
  height : Option UInt32

/-- Any two sides; whether they make a canvas for video is not asked here. -/
def record : Record Draft Canvas where
  name := "Dimensions"
  fields := [
    .of "width" [] true Reader.size32 Draft.width fun d w => { d with width := some w },
    .of "height" [] true Reader.size32 Draft.height fun d h => { d with height := some h }]
  draft := ⟨none, none⟩
  finish d := return ⟨← Json.require "width" d.width, ← Json.require "height" d.height⟩

def toValue (c : Canvas) : Value :=
  .object [("width", .natural c.width.toNat), ("height", .natural c.height.toNat)]

end Canvas

namespace Settings

structure Draft where
  transition : Option TransitionKind
  duration : Option Float
  aspect : Option AspectRatio

/-- Settings under a draft: each field that was not given is as usual. -/
def Draft.settings (d : Draft) : Settings Float where
  transition := d.transition.getD .usual
  duration := d.duration.getD usualDuration
  aspect := d.aspect.getD .usual

def record : Record Draft (Settings Float) where
  name := "Settings"
  fields := [
    .of "transition_kind" ["transition"] false TransitionKind.reader Draft.transition
      fun d k => { d with transition := some k },
    .of "transition_duration" ["duration"] false Reader.real Draft.duration
      fun d x => { d with duration := some x },
    .of "aspect_ratio" ["aspectRatio"] false AspectRatio.reader Draft.aspect
      fun d r => { d with aspect := some r }]
  draft := ⟨none, none, none⟩
  finish d := .ok d.settings

def toValue (s : Settings Float) : Value :=
  .object [("transition_kind", .string s.transition.name),
    ("transition_duration", .real s.duration), ("aspect_ratio", .string s.aspect.name)]

end Settings

namespace Image

structure Draft where
  path : Option FilePath
  width : Option (Option UInt32)
  height : Option (Option UInt32)

def record : Record Draft Image where
  name := "ImageInput"
  fields := [
    .of "path" [] true FilePath.reader Draft.path fun d p => { d with path := some p },
    .of "width" [] false (Reader.optional Reader.size32) Draft.width
      fun d w => { d with width := some w },
    .of "height" [] false (Reader.optional Reader.size32) Draft.height
      fun d h => { d with height := some h }]
  draft := ⟨none, none, none⟩
  finish d := return ⟨← Json.require "path" d.path, d.width.getD none, d.height.getD none⟩

def toValue (i : Image) : Except WriteFault Value :=
  return .object [("path", ← i.path.toValue),
    ("width", .ofOption (fun w => .natural w.toNat) i.width),
    ("height", .ofOption (fun h => .natural h.toNat) i.height)]

end Image

namespace Encoder

structure Draft where
  videoCodec : Option String
  preset : Option String
  crf : Option UInt8
  pixels : Option String
  audioCodec : Option String
  audioBitrate : Option String

def Draft.encoder (d : Draft) : Encoder where
  videoCodec := d.videoCodec.getD usual.videoCodec
  preset := d.preset.getD usual.preset
  crf := d.crf.getD usual.crf
  pixels := d.pixels.getD usual.pixels
  audioCodec := d.audioCodec.getD usual.audioCodec
  audioBitrate := d.audioBitrate.getD usual.audioBitrate

def textField (name : String) (get : Draft → Option String) (put : Draft → String → Draft) :
    RecordField Draft :=
  .of name [] false (Reader.text "a string") get put

def record : Record Draft Encoder where
  name := "EncoderParams"
  fields := [
    textField "video_codec" Draft.videoCodec fun d s => { d with videoCodec := some s },
    textField "preset" Draft.preset fun d s => { d with preset := some s },
    .of "crf" [] false Reader.octet Draft.crf fun d n => { d with crf := some n },
    textField "pix_fmt" Draft.pixels fun d s => { d with pixels := some s },
    textField "audio_codec" Draft.audioCodec fun d s => { d with audioCodec := some s },
    textField "audio_bitrate" Draft.audioBitrate fun d s => { d with audioBitrate := some s }]
  draft := ⟨none, none, none, none, none, none⟩
  finish d := .ok d.encoder

def toValue (e : Encoder) : Value :=
  .object [("video_codec", .string e.videoCodec), ("preset", .string e.preset),
    ("crf", .natural e.crf.toNat), ("pix_fmt", .string e.pixels),
    ("audio_codec", .string e.audioCodec), ("audio_bitrate", .string e.audioBitrate)]

end Encoder

namespace Config

structure Draft where
  photo : Option Float
  encoder : Option Encoder
  fadeOffsets : Option FadeOffsets

def Draft.config (d : Draft) : Config Float where
  photo := d.photo.getD usual.photo
  encoder := d.encoder.getD usual.encoder
  fadeOffsets := d.fadeOffsets.getD usual.fadeOffsets

def record : Record Draft (Config Float) where
  name := "CompileConfig"
  fields := [
    .of "photo_duration_s" [] false Reader.real Draft.photo fun d x => { d with photo := some x },
    .of "encoder" [] false Encoder.record.reader Draft.encoder
      fun d e => { d with encoder := some e },
    .of "fade_offsets" [] false FadeOffsets.reader Draft.fadeOffsets
      fun d o => { d with fadeOffsets := some o }]
  draft := ⟨none, none, none⟩
  finish d := .ok d.config

def toValue (c : Config Float) : Value :=
  .object [("photo_duration_s", .real c.photo), ("encoder", c.encoder.toValue),
    ("fade_offsets", .string c.fadeOffsets.name)]

def ofText (text : ByteArray) : Except (Error Float) (Checked Float) :=
  match (Json.read record.reader text).result with
  | .ok config => config.checked?.mapError .config
  | .error fault => .error (.unread .config fault)

end Config

namespace Request

structure Draft where
  images : Option (List Image)
  audio : Option (Option FilePath)
  settings : Option (Settings Float)
  output : Option FilePath

def record : Record Draft (Request Float) where
  name := "SlideshowRequest"
  fields := [
    .of "images" [] true (Reader.list Image.record.reader) Draft.images
      fun d is => { d with images := some is },
    .of "audio" [] false (Reader.optional FilePath.reader) Draft.audio
      fun d p => { d with audio := some p },
    .of "settings" [] false Settings.record.reader Draft.settings
      fun d s => { d with settings := some s },
    .of "output" [] true FilePath.reader Draft.output fun d p => { d with output := some p }]
  draft := ⟨none, none, none, none⟩
  finish d := do
    let images ← Json.require "images" d.images
    let output ← Json.require "output" d.output
    return ⟨images, d.audio.getD none, d.settings.getD Settings.usual, output⟩

def toValue (r : Request Float) : Except WriteFault Value := do
  return .object [("images", .list (← r.images.mapM Image.toValue)),
    ("audio", ← match r.audio with
      | some p => p.toValue
      | none => .ok .null),
    ("settings", r.settings.toValue), ("output", ← r.output.toValue)]

def ofText (text : ByteArray) : Traced Float (Request Float) :=
  let reading := Json.read record.reader text
  ⟨reading.notices.map .notice, reading.result.mapError (.unread .request)⟩

end Request

end Diaporama
