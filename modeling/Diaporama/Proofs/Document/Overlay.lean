import Diaporama.Document.Settings
import Diaporama.Proofs.Json.Slots

/-!
# Settings and configurations overlay what is usual

Both are read from an object whose members may all be missing: each field is as usual unless one
member gives it, under any of its names. No field may be given twice or with a value of the wrong
kind, and members with other names do not matter.
-/

namespace Diaporama

open Json (Tree Alike Decides FieldSlot Overlaid Reader Record given)

theorem TransitionKind.decides_reader (t : Tree) :
    Decides TransitionKind.reader t (t.Selects TransitionKind.select) := by
  intro bs rest hText
  exact (Json.decides_text "a string" t hText).bind_reads fun s =>
    (Json.Reads.notice _ rest).bind (.pure _ rest)

theorem AspectRatio.decides_reader (t : Tree) :
    Decides AspectRatio.reader t (t.Selects AspectRatio.select) := by
  intro bs rest hText
  exact (Json.decides_text "a string" t hText).bind_reads fun s =>
    (Json.Reads.notice _ rest).bind (.pure _ rest)

namespace Settings

structure Overlays (members : List (String × Tree)) (s : Settings Float) : Prop where
  transition : Overlaid ["transition_kind", "transition"] (Tree.Selects TransitionKind.select)
    usual.transition members s.transition
  duration : Overlaid ["transition_duration", "duration"] Tree.IsReal
    usual.duration members s.duration
  aspect : Overlaid ["aspect_ratio", "aspectRatio"] (Tree.Selects AspectRatio.select)
    usual.aspect members s.aspect

def names : List (List String) :=
  [["transition_kind", "transition"], ["transition_duration", "duration"],
    ["aspect_ratio", "aspectRatio"]]

theorem Overlays.of_alike {members members' : List (String × Tree)} {s : Settings Float}
    (h : Overlays members s) (hAlike : Alike names members members') : Overlays members' s where
  transition := h.transition.of_perm (hAlike _ (by simp [names]))
  duration := h.duration.of_perm (hAlike _ (by simp [names]))
  aspect := h.aspect.of_perm (hAlike _ (by simp [names]))

def transitionSlot : FieldSlot Draft (Settings Float) where
  Kind := TransitionKind
  name := "transition_kind"
  aliases := ["transition"]
  reader := TransitionKind.reader
  get := Draft.transition
  put d k := { d with transition := some k }
  value := Settings.transition
  usual := usual.transition
  Means := Tree.Selects TransitionKind.select

def durationSlot : FieldSlot Draft (Settings Float) where
  Kind := Float
  name := "transition_duration"
  aliases := ["duration"]
  reader := Reader.real
  get := Draft.duration
  put d x := { d with duration := some x }
  value := Settings.duration
  usual := usual.duration
  Means := Tree.IsReal

def aspectSlot : FieldSlot Draft (Settings Float) where
  Kind := AspectRatio
  name := "aspect_ratio"
  aliases := ["aspectRatio"]
  reader := AspectRatio.reader
  get := Draft.aspect
  put d r := { d with aspect := some r }
  value := Settings.aspect
  usual := usual.aspect
  Means := Tree.Selects AspectRatio.select

def layout : Record.Layout record where
  slots := [transitionSlot, durationSlot, aspectSlot]
  fields_eq := rfl
  apart := by
    simp only [List.pairwise_cons, List.forall_mem_cons]
    refine ⟨⟨?_, ?_, nofun⟩, ⟨?_, nofun⟩, nofun, .nil⟩ <;>
      exact ⟨by decide, fun _ _ => rfl, fun _ _ => rfl⟩
  get_put := by
    simp only [List.forall_mem_cons]
    exact ⟨fun _ _ => rfl, fun _ _ => rfl, fun _ _ => rfl, nofun⟩
  fresh := by
    simp only [List.forall_mem_cons]
    exact ⟨rfl, rfl, rfl, nofun⟩
  draft_ext := by
    intro d d' h
    simp only [List.forall_mem_cons] at h
    cases d
    cases d'
    obtain ⟨rfl, rfl, rfl, -⟩ := h
    rfl
  finish := Draft.settings
  finish_eq _ := rfl
  value_finish := by
    simp only [List.forall_mem_cons]
    exact ⟨fun _ => rfl, fun _ => rfl, fun _ => rfl, nofun⟩
  value_ext := by
    intro s s' h
    simp only [List.forall_mem_cons] at h
    cases s
    cases s'
    obtain ⟨rfl, rfl, rfl, -⟩ := h
    rfl

theorem decides_record (members : List (String × Tree)) :
    Decides record.reader (.object members) (Overlays members) := by
  have hDecides : ∀ p ∈ layout.slots, ∀ t ∈ given p.names members,
      Decides p.reader t (p.Means t) := by
    simp only [layout, List.forall_mem_cons]
    exact ⟨fun t _ => TransitionKind.decides_reader t, fun t _ => Json.decides_real t,
      fun t _ => AspectRatio.decides_reader t, nofun⟩
  refine (layout.decides_reader hDecides).congr fun s => ?_
  simp only [layout, List.forall_mem_cons]
  constructor
  · rintro ⟨hTransition, hDuration, hAspect, -⟩
    exact ⟨hTransition, hDuration, hAspect⟩
  · intro h
    exact ⟨h.transition, h.duration, h.aspect, nofun⟩

end Settings

namespace Encoder

structure Overlays (members : List (String × Tree)) (e : Encoder) : Prop where
  videoCodec : Overlaid ["video_codec"] Tree.IsString usual.videoCodec members e.videoCodec
  preset : Overlaid ["preset"] Tree.IsString usual.preset members e.preset
  crf : Overlaid ["crf"] Tree.IsOctet usual.crf members e.crf
  pixels : Overlaid ["pix_fmt"] Tree.IsString usual.pixels members e.pixels
  audioCodec : Overlaid ["audio_codec"] Tree.IsString usual.audioCodec members e.audioCodec
  audioBitrate : Overlaid ["audio_bitrate"] Tree.IsString usual.audioBitrate members e.audioBitrate

def names : List (List String) :=
  [["video_codec"], ["preset"], ["crf"], ["pix_fmt"], ["audio_codec"], ["audio_bitrate"]]

theorem Overlays.of_alike {members members' : List (String × Tree)} {e : Encoder}
    (h : Overlays members e) (hAlike : Alike names members members') : Overlays members' e where
  videoCodec := h.videoCodec.of_perm (hAlike _ (by simp [names]))
  preset := h.preset.of_perm (hAlike _ (by simp [names]))
  crf := h.crf.of_perm (hAlike _ (by simp [names]))
  pixels := h.pixels.of_perm (hAlike _ (by simp [names]))
  audioCodec := h.audioCodec.of_perm (hAlike _ (by simp [names]))
  audioBitrate := h.audioBitrate.of_perm (hAlike _ (by simp [names]))

def textSlot (name : String) (get : Draft → Option String) (put : Draft → String → Draft)
    (value : Encoder → String) : FieldSlot Draft Encoder where
  Kind := String
  name := name
  aliases := []
  reader := Reader.text "a string"
  get := get
  put := put
  value := value
  usual := value usual
  Means := Tree.IsString

def crfSlot : FieldSlot Draft Encoder where
  Kind := UInt8
  name := "crf"
  aliases := []
  reader := Reader.octet
  get := Draft.crf
  put d n := { d with crf := some n }
  value := Encoder.crf
  usual := usual.crf
  Means := Tree.IsOctet

def layout : Record.Layout record where
  slots := [
    textSlot "video_codec" Draft.videoCodec (fun d s => { d with videoCodec := some s }) videoCodec,
    textSlot "preset" Draft.preset (fun d s => { d with preset := some s }) preset,
    crfSlot,
    textSlot "pix_fmt" Draft.pixels (fun d s => { d with pixels := some s }) pixels,
    textSlot "audio_codec" Draft.audioCodec (fun d s => { d with audioCodec := some s }) audioCodec,
    textSlot "audio_bitrate" Draft.audioBitrate (fun d s => { d with audioBitrate := some s })
      audioBitrate]
  fields_eq := rfl
  apart := by
    simp only [List.pairwise_cons, List.forall_mem_cons]
    refine ⟨⟨?_, ?_, ?_, ?_, ?_, nofun⟩, ⟨?_, ?_, ?_, ?_, nofun⟩, ⟨?_, ?_, ?_, nofun⟩,
      ⟨?_, ?_, nofun⟩, ⟨?_, nofun⟩, nofun, .nil⟩ <;>
      exact ⟨by decide, fun _ _ => rfl, fun _ _ => rfl⟩
  get_put := by
    simp only [List.forall_mem_cons]
    exact ⟨fun _ _ => rfl, fun _ _ => rfl, fun _ _ => rfl, fun _ _ => rfl, fun _ _ => rfl,
      fun _ _ => rfl, nofun⟩
  fresh := by
    simp only [List.forall_mem_cons]
    exact ⟨rfl, rfl, rfl, rfl, rfl, rfl, nofun⟩
  draft_ext := by
    intro d d' h
    simp only [List.forall_mem_cons] at h
    cases d
    cases d'
    obtain ⟨rfl, rfl, rfl, rfl, rfl, rfl, -⟩ := h
    rfl
  finish := Draft.encoder
  finish_eq _ := rfl
  value_finish := by
    simp only [List.forall_mem_cons]
    exact ⟨fun _ => rfl, fun _ => rfl, fun _ => rfl, fun _ => rfl, fun _ => rfl, fun _ => rfl,
      nofun⟩
  value_ext := by
    intro e e' h
    simp only [List.forall_mem_cons] at h
    cases e
    cases e'
    obtain ⟨rfl, rfl, rfl, rfl, rfl, rfl, -⟩ := h
    rfl

theorem decides_record (members : List (String × Tree)) :
    Decides record.reader (.object members) (Overlays members) := by
  have hText : ∀ t : Tree, Decides (Reader.text "a string") t t.IsString :=
    Json.decides_text "a string"
  have hDecides : ∀ p ∈ layout.slots, ∀ t ∈ given p.names members,
      Decides p.reader t (p.Means t) := by
    simp only [layout, List.forall_mem_cons]
    exact ⟨fun t _ => hText t, fun t _ => hText t, fun t _ => Json.decides_octet t,
      fun t _ => hText t, fun t _ => hText t, fun t _ => hText t, nofun⟩
  refine (layout.decides_reader hDecides).congr fun e => ?_
  simp only [layout, List.forall_mem_cons]
  constructor
  · rintro ⟨hVideo, hPreset, hCrf, hPixels, hAudio, hBitrate, -⟩
    exact ⟨hVideo, hPreset, hCrf, hPixels, hAudio, hBitrate⟩
  · intro h
    exact ⟨h.videoCodec, h.preset, h.crf, h.pixels, h.audioCodec, h.audioBitrate, nofun⟩

def IsWritten (t : Tree) (e : Encoder) : Prop :=
  ∃ members, t = .object members ∧ Overlays members e

def AlikeObjects (t t' : Tree) : Prop :=
  ∃ members members', t = .object members ∧ t' = .object members' ∧ Alike names members members'

theorem AlikeObjects.left_object {t t' : Tree} (h : AlikeObjects t t') :
    ∃ members, t = .object members := by
  obtain ⟨members, -, hObject, -⟩ := h
  exact ⟨members, hObject⟩

theorem AlikeObjects.symm {t t' : Tree} (h : AlikeObjects t t') : AlikeObjects t' t := by
  obtain ⟨members, members', rfl, rfl, hAlike⟩ := h
  exact ⟨members', members, rfl, rfl, hAlike.symm⟩

theorem IsWritten.of_alike {t t' : Tree} {e : Encoder} (h : IsWritten t e)
    (hAlike : AlikeObjects t t') : IsWritten t' e := by
  obtain ⟨_, members', rfl, rfl, hAlike⟩ := hAlike
  obtain ⟨members, ⟨⟩, h⟩ := h
  exact ⟨members', rfl, h.of_alike hAlike⟩

theorem decides_record_of_object {t : Tree} (h : ∃ members, t = .object members) :
    Decides record.reader t (IsWritten t) := by
  obtain ⟨members, rfl⟩ := h
  refine (decides_record members).congr fun e => ?_
  simp [IsWritten]

end Encoder

namespace FadeOffsets

theorem decides_reader {t : Tree} (h : ∀ members, t ≠ .object members) :
    Decides reader t (t.IsString ·.name) := by
  refine (Json.decides_variant _ _ h).congr fun mode => ?_
  constructor
  · rintro ⟨s, rfl, hName⟩
    have hSame : mode.name = s := by simpa using List.find?_some hName
    rw [hSame]
    rfl
  · intro hString
    exact ⟨mode.name, hString, ofName?_name mode⟩

end FadeOffsets

namespace Config

structure Overlays (members : List (String × Tree)) (c : Config Float) : Prop where
  photo : Overlaid ["photo_duration_s"] Tree.IsReal usual.photo members c.photo
  encoder : Overlaid ["encoder"] Encoder.IsWritten usual.encoder members c.encoder
  fadeOffsets : Overlaid ["fade_offsets"] (fun t mode => t.IsString mode.name) usual.fadeOffsets
    members c.fadeOffsets

def photoSlot : FieldSlot Draft (Config Float) where
  Kind := Float
  name := "photo_duration_s"
  aliases := []
  reader := Reader.real
  get := Draft.photo
  put d x := { d with photo := some x }
  value := Config.photo
  usual := usual.photo
  Means := Tree.IsReal

def encoderSlot : FieldSlot Draft (Config Float) where
  Kind := Encoder
  name := "encoder"
  aliases := []
  reader := Encoder.record.reader
  get := Draft.encoder
  put d e := { d with encoder := some e }
  value := Config.encoder
  usual := usual.encoder
  Means := Encoder.IsWritten

def fadeOffsetsSlot : FieldSlot Draft (Config Float) where
  Kind := FadeOffsets
  name := "fade_offsets"
  aliases := []
  reader := FadeOffsets.reader
  get := Draft.fadeOffsets
  put d o := { d with fadeOffsets := some o }
  value := Config.fadeOffsets
  usual := usual.fadeOffsets
  Means t mode := t.IsString mode.name

def layout : Record.Layout record where
  slots := [photoSlot, encoderSlot, fadeOffsetsSlot]
  fields_eq := rfl
  apart := by
    simp only [List.pairwise_cons, List.forall_mem_cons]
    refine ⟨⟨?_, ?_, nofun⟩, ⟨?_, nofun⟩, nofun, .nil⟩ <;>
      exact ⟨by decide, fun _ _ => rfl, fun _ _ => rfl⟩
  get_put := by
    simp only [List.forall_mem_cons]
    exact ⟨fun _ _ => rfl, fun _ _ => rfl, fun _ _ => rfl, nofun⟩
  fresh := by
    simp only [List.forall_mem_cons]
    exact ⟨rfl, rfl, rfl, nofun⟩
  draft_ext := by
    intro d d' h
    simp only [List.forall_mem_cons] at h
    cases d
    cases d'
    obtain ⟨rfl, rfl, rfl, -⟩ := h
    rfl
  finish := Draft.config
  finish_eq _ := rfl
  value_finish := by
    simp only [List.forall_mem_cons]
    exact ⟨fun _ => rfl, fun _ => rfl, fun _ => rfl, nofun⟩
  value_ext := by
    intro c c' h
    simp only [List.forall_mem_cons] at h
    cases c
    cases c'
    obtain ⟨rfl, rfl, rfl, -⟩ := h
    rfl

/-- The encoder is given as an object and the offsets are not. -/
structure Plain (members : List (String × Tree)) : Prop where
  encoder : ∀ t ∈ given ["encoder"] members, ∃ inner, t = .object inner
  fadeOffsets : ∀ t ∈ given ["fade_offsets"] members, ∀ inner, t ≠ .object inner

theorem decides_record {members : List (String × Tree)} (h : Plain members) :
    Decides record.reader (.object members) (Overlays members) := by
  have hDecides : ∀ p ∈ layout.slots, ∀ t ∈ given p.names members,
      Decides p.reader t (p.Means t) := by
    simp only [layout, List.forall_mem_cons]
    exact ⟨fun t _ => Json.decides_real t,
      fun t ht => Encoder.decides_record_of_object (h.encoder t ht),
      fun t ht => FadeOffsets.decides_reader (h.fadeOffsets t ht), nofun⟩
  refine (layout.decides_reader hDecides).congr fun c => ?_
  simp only [layout, List.forall_mem_cons]
  constructor
  · rintro ⟨hPhoto, hEncoder, hOffsets, -⟩
    exact ⟨hPhoto, hEncoder, hOffsets⟩
  · intro h
    exact ⟨h.photo, h.encoder, h.fadeOffsets, nofun⟩

/-- The same is given for each field, but for the order and what does not matter. -/
structure AlikeMembers (members members' : List (String × Tree)) : Prop where
  flat : Alike [["photo_duration_s"], ["fade_offsets"]] members members'
  encoder : List.Forall₂ Encoder.AlikeObjects (given ["encoder"] members)
    (given ["encoder"] members')

section

variable {members members' : List (String × Tree)}

theorem AlikeMembers.symm (h : AlikeMembers members members') : AlikeMembers members' members where
  flat := h.flat.symm
  encoder := h.encoder.flip.imp fun _ _ => Encoder.AlikeObjects.symm

theorem Overlays.of_alike {c : Config Float} (h : Overlays members c)
    (hAlike : AlikeMembers members members') : Overlays members' c where
  photo := h.photo.of_perm (hAlike.flat _ (by simp))
  encoder := h.encoder.of_forall₂ hAlike.encoder fun _ _ _ hObjects hMeans =>
    hMeans.of_alike hObjects
  fadeOffsets := h.fadeOffsets.of_perm (hAlike.flat _ (by simp))

theorem Plain.of_alike (h : Plain members) (hAlike : AlikeMembers members members') :
    Plain members' where
  encoder := by
    have hObjects : List.Forall₂
        (fun t t' => (∃ inner, t = .object inner) ∧ Encoder.AlikeObjects t t')
        (given ["encoder"] members') (given ["encoder"] members) :=
      hAlike.symm.encoder.imp fun _ _ h => ⟨h.left_object, h⟩
    exact ((List.forall₂_and_left _ _).mp hObjects).1
  fadeOffsets t ht := h.fadeOffsets t ((hAlike.flat _ (by simp)).mem_iff.mpr ht)

end

end Config

/-- Settings and configurations are read from an object exactly if it gives nothing twice and all of
it rightly, and then as usual but for what is given, however it is ordered and named. -/
theorem result_read_iff_overlays {members : List (String × Tree)} {text : ByteArray}
    (hText : (Tree.object members).IsText text) :
    (∀ s, (Json.read Settings.record.reader text).result = .ok s ↔ Settings.Overlays members s) ∧
      (Config.Plain members →
        ∀ c, (Json.read Config.record.reader text).result = .ok c ↔ Config.Overlays members c) ∧
      ∀ {members' : List (String × Tree)} {text' : ByteArray},
        (Tree.object members').IsText text' →
        (Alike Settings.names members members' →
          ∀ s, (Json.read Settings.record.reader text).result = .ok s ↔
            (Json.read Settings.record.reader text').result = .ok s) ∧
        (Config.Plain members → Config.AlikeMembers members members' →
          ∀ c, (Json.read Config.record.reader text).result = .ok c ↔
            (Json.read Config.record.reader text').result = .ok c) := by
  refine ⟨fun s => (Settings.decides_record members).result_read hText s,
    fun hPlain c => (Config.decides_record hPlain).result_read hText c, ?_⟩
  intro members' text' hText'
  constructor
  · intro hAlike s
    rw [(Settings.decides_record members).result_read hText,
      (Settings.decides_record members').result_read hText']
    exact ⟨fun h => h.of_alike hAlike, fun h => h.of_alike hAlike.symm⟩
  · intro hPlain hAlike c
    rw [(Config.decides_record hPlain).result_read hText,
      (Config.decides_record (hPlain.of_alike hAlike)).result_read hText']
    exact ⟨fun h => h.of_alike hAlike, fun h => h.of_alike hAlike.symm⟩

/-- The duration has its other name in the second text, and in both there are members that no one
asks for: a string that is no text, and a numeral that is too large. -/
theorem result_read_iff_overlays_reordered :
    let text := "\x7b\"duration\":2,\"encoder\":\x7b\"crf\":18\x7d,\"x\":[\"\\ud800\"]\x7d".toUTF8
    let text' := "\x7b\"y\":1e9999999999, \"encoder\":\x7b\"crf\":18\x7d, \"transition_duration\":2\x7d".toUTF8
    let config : Config Float := { Config.usual with encoder := { Encoder.usual with crf := 18 } }
    (Json.read Settings.record.reader text).result =
        .ok { Settings.usual with duration := UInt64.toFloat 2 } ∧
      (Json.read Config.record.reader text).result = .ok config ∧
      (Json.read Settings.record.reader text').result =
        .ok { Settings.usual with duration := UInt64.toFloat 2 } ∧
      (Json.read Config.record.reader text').result = .ok config := by
  intro text text' config
  have hBytes : text.toList =
      [123, 34, 100, 117, 114, 97, 116, 105, 111, 110, 34, 58, 50, 44, 34, 101, 110, 99, 111, 100,
        101, 114, 34, 58, 123, 34, 99, 114, 102, 34, 58, 49, 56, 125, 44, 34, 120, 34, 58, 91, 34,
        92, 117, 100, 56, 48, 48, 34, 93, 125] := by
    decide +kernel
  have hBytes' : text'.toList =
      [123, 34, 121, 34, 58, 49, 101, 57, 57, 57, 57, 57, 57, 57, 57, 57, 57, 44, 32, 34, 101,
        110, 99, 111, 100, 101, 114, 34, 58, 123, 34, 99, 114, 102, 34, 58, 49, 56, 125, 44, 32,
        34, 116, 114, 97, 110, 115, 105, 116, 105, 111, 110, 95, 100, 117, 114, 97, 116, 105, 111,
        110, 34, 58, 50, 125] := by
    decide +kernel
  let encoder : String × Tree := ("encoder", .object [("crf", .number (.natural 18))])
  let members : List (String × Tree) :=
    [("duration", .number (.natural 2)), encoder, ("x", .list [.noText])]
  let members' : List (String × Tree) :=
    [("y", .tooLarge), encoder, ("transition_duration", .number (.natural 2))]
  have hText : (Tree.object members).IsText text := by
    unfold Tree.IsText
    rw [hBytes]
    -- mark by mark: a name, its colon, its value, and the comma before the next one
    exact ⟨_, ⟨_, ⟨_, rfl, rfl⟩,
      _, _, _, _, rfl, ⟨_, ⟨_, rfl, rfl⟩, rfl⟩, ⟨_, rfl, rfl⟩, ⟨_, .inl rfl, rfl⟩,
      _, _, _, _, ⟨_, rfl, rfl⟩, ⟨_, ⟨_, rfl, rfl⟩, rfl⟩, ⟨_, rfl, rfl⟩,
        ⟨_, ⟨_, rfl, rfl⟩, _, _, _, _, rfl, ⟨_, ⟨_, rfl, rfl⟩, rfl⟩, ⟨_, rfl, rfl⟩,
          ⟨_, .inl rfl, rfl⟩, ⟨_, rfl, rfl⟩⟩,
      _, _, _, _, ⟨_, rfl, rfl⟩, ⟨_, ⟨_, rfl, rfl⟩, rfl⟩, ⟨_, rfl, rfl⟩,
        ⟨_, ⟨_, rfl, rfl⟩, _, _, rfl, ⟨_, _, ⟨_, rfl, rfl⟩, rfl, rfl⟩, ⟨_, rfl, rfl⟩⟩,
      ⟨_, rfl, rfl⟩⟩, rfl⟩
  have hText' : (Tree.object members').IsText text' := by
    unfold Tree.IsText
    rw [hBytes']
    exact ⟨_, ⟨_, ⟨_, rfl, rfl⟩,
      _, _, _, _, rfl, ⟨_, ⟨_, rfl, rfl⟩, rfl⟩, ⟨_, rfl, rfl⟩, ⟨_, _, .inl rfl, rfl⟩,
      _, _, _, _, ⟨_, rfl, rfl⟩, ⟨_, ⟨_, rfl, rfl⟩, rfl⟩, ⟨_, rfl, rfl⟩,
        ⟨_, ⟨_, rfl, rfl⟩, _, _, _, _, rfl, ⟨_, ⟨_, rfl, rfl⟩, rfl⟩, ⟨_, rfl, rfl⟩,
          ⟨_, .inl rfl, rfl⟩, ⟨_, rfl, rfl⟩⟩,
      _, _, _, _, ⟨_, rfl, rfl⟩, ⟨_, ⟨_, rfl, rfl⟩, rfl⟩, ⟨_, rfl, rfl⟩, ⟨_, .inl rfl, rfl⟩,
      ⟨_, rfl, rfl⟩⟩, rfl⟩
  obtain ⟨hSettings, hConfig, hAlike⟩ := result_read_iff_overlays hText
  obtain ⟨hSettings', hConfig'⟩ := hAlike hText'
  have hPlain : Config.Plain members := by
    constructor <;> simp [members, given, encoder]
  have hEncoder : Encoder.IsWritten encoder.2 { Encoder.usual with crf := 18 } :=
    ⟨_, rfl, .absent rfl, .absent rfl, .present rfl rfl, .absent rfl, .absent rfl, .absent rfl⟩
  have hSame : Alike Settings.names members members' := by
    simp only [Alike, Settings.names, List.forall_mem_cons]
    exact ⟨.refl _, .refl _, .refl _, List.forall_mem_nil _⟩
  have hFlat : Alike [["photo_duration_s"], ["fade_offsets"]] members members' := by
    simp only [Alike, List.forall_mem_cons]
    exact ⟨.refl _, .refl _, List.forall_mem_nil _⟩
  have hAlikeMembers : Config.AlikeMembers members members' :=
    ⟨hFlat, .cons ⟨_, _, rfl, rfl, fun _ _ => .refl _⟩ .nil⟩
  have hSettingsRead := (hSettings { Settings.usual with duration := UInt64.toFloat 2 }).mpr
    ⟨.absent rfl, .present rfl ⟨.natural 2, rfl, rfl⟩, .absent rfl⟩
  have hConfigRead := (hConfig hPlain config).mpr ⟨.absent rfl, .present rfl hEncoder, .absent rfl⟩
  exact ⟨hSettingsRead, hConfigRead, (hSettings' hSame _).mp hSettingsRead,
    (hConfig' hPlain hAlikeMembers _).mp hConfigRead⟩

end Diaporama
