import Diaporama.Proofs.CommandLine.Brief
import Diaporama.Proofs.Document.Overlay
import Diaporama.Proofs.Json.Writing
import Diaporama.Proofs.Slideshow.Arguments

/-!
# Documents are read back

A request or a configuration is written with the first name of every field and `null` for what is
not known. Writer and reader are given apart from each other, with second names, defaults and
lenient selectors on one side only; all the same what is written is read back as it was, whatever
the paths and texts in it hold.
-/

namespace Diaporama

open CommandLine (Brief)
open Json (Delivers ReadsBack Record RecordField Spacing Tree Value given)

/-! ## Settings -/

theorem TransitionKind.select_name (k : TransitionKind) : select k.name = k := by
  cases k <;> decide +kernel

theorem AspectRatio.select_name (r : AspectRatio) : select r.name = r := by
  cases r <;> decide +kernel

theorem Settings.delivers_toValue (s : Settings Float) : Delivers record.reader s.toValue s := by
  let b : Brief := ⟨[], none, some s.transition.name, some s.duration, some s.aspect.name, ""⟩
  have hWritten : b.IsSettings s.toValue :=
    ⟨"transition_kind", by simp, "transition_duration", by simp, "aspect_ratio", by simp, _, rfl,
      .refl _⟩
  have hSettings : b.settings = s := by
    simp [b, Brief.settings, TransitionKind.select_name, AspectRatio.select_name]
  have hDelivers := Brief.delivers_settings hWritten
  rwa [hSettings] at hDelivers

/-! ## Configurations -/

def Encoder.members (e : Encoder) : List (String × Tree) :=
  [("video_codec", .string e.videoCodec), ("preset", .string e.preset),
    ("crf", .number (.natural e.crf.toNat)), ("pix_fmt", .string e.pixels),
    ("audio_codec", .string e.audioCodec), ("audio_bitrate", .string e.audioBitrate)]

theorem Encoder.overlays_members (e : Encoder) : Overlays e.members e where
  videoCodec := .present rfl rfl
  preset := .present rfl rfl
  crf := .present rfl rfl
  pixels := .present rfl rfl
  audioCodec := .present rfl rfl
  audioBitrate := .present rfl rfl

namespace Config

theorem delivers_toValue (c : Config Float) : Delivers record.reader c.toValue c := by
  -- which number stands for the double is told by the text alone
  rintro bs rest ⟨inner, hBrace, start, named, valued, next, hFirst, hName, hColon,
    ⟨n, hFloat, hNumber⟩, hMembers⟩
  let members : List (String × Tree) := [("photo_duration_s", .number n),
    ("encoder", .object c.encoder.members), ("fade_offsets", .string c.fadeOffsets.name)]
  have hText : (Tree.object members).At bs rest :=
    ⟨inner, hBrace, start, named, valued, next, hFirst, hName, hColon, hNumber, hMembers⟩
  have hPlain : Plain members := by
    constructor <;> simp [members, given]
  refine (decides_record hPlain hText).reads c ⟨?_, ?_, ?_⟩
  · exact .present rfl ⟨n, rfl, hFloat⟩
  · exact .present rfl ⟨_, rfl, c.encoder.overlays_members⟩
  · exact .present rfl rfl

theorem rereadable_toValue {c : Config Float} (h : ReadsBack c.photo) : c.toValue.Rereadable := by
  have hCrf : c.encoder.crf.toNat < UInt64.size := c.encoder.crf.toNat_lt.trans (by decide)
  simp only [toValue, Encoder.toValue, Value.Rereadable, Value.MembersRereadable, and_true,
    true_and]
  exact ⟨h, hCrf⟩

theorem checked?_config (c : Checked Float) : c.config.checked? = .ok c := by
  unfold checked?
  split
  · rfl
  · next fault hFault =>
    rw [c.passed] at hFault
    cases hFault

theorem ofText_toValue {c : Checked Float} (h : ReadsBack c.config.photo) (sp : Spacing) :
    ofText (sp.text 0 c.config.toValue).toUTF8 = .ok c := by
  have hRead := Json.result_read c.config.delivers_toValue
    (sp.isText_text (rereadable_toValue h) 0)
  rw [ofText, hRead]
  exact mapError_eq_ok_iff.mpr (checked?_config c)

end Config

/-! ## Requests -/

theorem FilePath.ofString_eq_of_text? {p : FilePath} {s : String} (h : p.text? = some s) :
    ofString s = p :=
  congrArg FilePath.mk (bytes_eq_of_text? h).symm

theorem FilePath.exists_toValue {p : FilePath} (h : p.text?.isSome) :
    ∃ s, p.toValue = .ok (.string s) ∧ Delivers reader (.string s) p := by
  obtain ⟨s, hs⟩ := Option.isSome_iff_exists.mp h
  refine ⟨s, by rw [toValue, hs], ?_⟩
  have hDelivers := delivers_reader s
  rwa [ofString_eq_of_text? hs] at hDelivers

namespace Image

theorem delivers_side (n : Option UInt32) :
    Delivers (Json.Reader.optional Json.Reader.size32)
      (.ofOption (fun n : UInt32 => .natural n.toNat) n) n :=
  Json.delivers_ofOption Json.delivers_size32 nofun n

theorem rereadable_side (n : Option UInt32) :
    (Value.ofOption (fun n : UInt32 => .natural n.toNat) n).Rereadable := by
  cases n with
  | none => trivial
  | some n => exact n.toNat_lt.trans (by decide)

theorem exists_toValue {i : Image} (h : i.path.text?.isSome) :
    ∃ v, i.toValue = .ok v ∧ v.Rereadable ∧ Delivers record.reader v i := by
  obtain ⟨s, hPath, hDelivers⟩ := FilePath.exists_toValue h
  have hWritten : i.toValue = .ok (.object [("path", .string s),
      ("width", .ofOption (fun w => .natural w.toNat) i.width),
      ("height", .ofOption (fun h => .natural h.toNat) i.height)]) := by
    rw [toValue, hPath]
    rfl
  refine ⟨_, hWritten, ⟨trivial, rereadable_side i.width, rereadable_side i.height, trivial⟩, ?_⟩
  let path : record.Entry :=
    .of "path" (.string s) i.path (show _ = some record.fields[0] from rfl) hDelivers
  let width : record.Entry :=
    .of "width" _ i.width (show _ = some record.fields[1] from rfl) (delivers_side i.width)
  let height : record.Entry :=
    .of "height" _ i.height (show _ = some record.fields[2] from rfl) (delivers_side i.height)
  have hWidth : path.Apart width := ⟨fun _ => rfl, fun _ => rfl, fun _ => rfl⟩
  have hHeight : path.Apart height := ⟨fun _ => rfl, fun _ => rfl, fun _ => rfl⟩
  have hSides : width.Apart height := ⟨fun _ => rfl, fun _ => rfl, fun _ => rfl⟩
  exact Record.delivers_reader [path, width, height] (.refl _) (by simp [*])
    (by simp [record, RecordField.of]) rfl

example : (toValue ⟨.ofString "a \"\\\n.png", some 640, none⟩).toOption.map (Spacing.tight.text 0) =
    some "\x7b\"path\":\"a \\\"\\\\\\n.png\",\"width\":640,\"height\":null\x7d" := by
  decide +kernel

end Image

namespace Request

theorem exists_mapM_toValue {is : List Image} (h : ∀ i ∈ is, i.path.text?.isSome) :
    ∃ vs, is.mapM Image.toValue = .ok vs ∧ Value.ItemsRereadable vs ∧
      List.Forall₂ (Delivers Image.record.reader) vs is := by
  induction is with
  | nil => exact ⟨[], rfl, trivial, .nil⟩
  | cons i is ih =>
    obtain ⟨v, hv, hRereadable, hDelivers⟩ := Image.exists_toValue (h i List.mem_cons_self)
    obtain ⟨vs, hvs, hAll, hEach⟩ := ih fun i hi => h i (List.mem_cons_of_mem _ hi)
    refine ⟨v :: vs, ?_, ⟨hRereadable, hAll⟩, .cons hDelivers hEach⟩
    rw [List.mapM_cons, hv, ok_bind, hvs, ok_bind]
    rfl

theorem exists_audio_toValue {audio : Option FilePath} (h : ∀ p ∈ audio, p.text?.isSome) :
    ∃ v, (∀ p ∈ audio, p.toValue = .ok v) ∧ (audio = none → v = .null) ∧ v.Rereadable ∧
      Delivers (Json.Reader.optional FilePath.reader) v audio := by
  cases audio with
  | none => exact ⟨.null, by simp, fun _ => rfl, trivial, Json.delivers_null _⟩
  | some p =>
    obtain ⟨s, hPath, hDelivers⟩ := FilePath.exists_toValue (h p rfl)
    have hText : Value.string s ≠ .null := by simp
    exact ⟨.string s, by simp [hPath], by simp, trivial, Json.delivers_optional hDelivers hText⟩

section

variable {r : Request Float} {is : List Value} {a o : Value}

theorem toValue_eq_ok (hImages : r.images.mapM Image.toValue = .ok is)
    (hAudio : ∀ p ∈ r.audio, p.toValue = .ok a) (hNone : r.audio = none → a = .null)
    (hOutput : r.output.toValue = .ok o) :
    r.toValue = .ok (.object [("images", .list is), ("audio", a),
      ("settings", r.settings.toValue), ("output", o)]) := by
  rw [toValue, hImages, ok_bind]
  cases hSound : r.audio with
  | none =>
    rw [hNone hSound, hOutput]
    rfl
  | some p =>
    dsimp only
    rw [hAudio p hSound, ok_bind, hOutput]
    rfl

theorem delivers_members
    (hImages : Delivers (Json.Reader.list Image.record.reader) (.list is) r.images)
    (hAudio : Delivers (Json.Reader.optional FilePath.reader) a r.audio)
    (hOutput : Delivers FilePath.reader o r.output) :
    Delivers record.reader (.object [("images", .list is), ("audio", a),
      ("settings", r.settings.toValue), ("output", o)]) r := by
  let images : record.Entry :=
    .of "images" (.list is) r.images (show _ = some record.fields[0] from rfl) hImages
  let audio : record.Entry :=
    .of "audio" a r.audio (show _ = some record.fields[1] from rfl) hAudio
  let settings : record.Entry := .of "settings" r.settings.toValue r.settings
    (show _ = some record.fields[2] from rfl) r.settings.delivers_toValue
  let output : record.Entry :=
    .of "output" o r.output (show _ = some record.fields[3] from rfl) hOutput
  have hApart : [images, audio, settings, output].Pairwise Record.Entry.Apart := by
    simp only [List.pairwise_cons, List.forall_mem_cons, List.not_mem_nil, false_implies,
      implies_true, and_true, List.Pairwise.nil]
    refine ⟨⟨?_, ?_, ?_⟩, ⟨?_, ?_⟩, ?_⟩
    all_goals exact ⟨fun _ => rfl, fun _ => rfl, fun _ => rfl⟩
  exact Record.delivers_reader [images, audio, settings, output] (.refl _) hApart
    (by simp [record, RecordField.of]) rfl

end

theorem exists_toValue {r : Request Float} (h : r.Textual)
    (hDuration : ReadsBack r.settings.duration) :
    ∃ v, r.toValue = .ok v ∧ v.Rereadable ∧ Delivers record.reader v r := by
  obtain ⟨is, hImages, hItems, hEach⟩ := exists_mapM_toValue h.images
  obtain ⟨a, hAudio, hNone, hSound, hDelivers⟩ := exists_audio_toValue h.audio
  obtain ⟨o, hOutput, hPath⟩ := FilePath.exists_toValue h.output
  have hSettings : r.settings.toValue.Rereadable := ⟨trivial, hDuration, trivial, trivial⟩
  exact ⟨_, toValue_eq_ok hImages hAudio hNone hOutput,
    ⟨hItems, hSound, hSettings, trivial, trivial⟩,
    delivers_members (Json.delivers_list hEach) hDelivers hPath⟩

end Request

/-- Whatever stands in it, a request with paths that are text and a configuration that passed its
check are read back from what is written of them with any space between the marks. Of numbers it is
asked that the one double in each is read back by itself. -/
theorem read_written :
    (∀ r : Request Float, r.Textual → ReadsBack r.settings.duration →
      ∃ v, r.toValue = .ok v ∧
        ∀ sp : Spacing, (Request.ofText (sp.text 0 v).toUTF8).result = .ok r) ∧
    ∀ c : Config.Checked Float, ReadsBack c.config.photo →
      ∀ sp : Spacing, Config.ofText (sp.text 0 c.config.toValue).toUTF8 = .ok c := by
  refine ⟨fun r hPaths hDuration => ?_, fun c hPhoto sp => Config.ofText_toValue hPhoto sp⟩
  obtain ⟨v, hWritten, hRereadable, hDelivers⟩ := Request.exists_toValue hPaths hDuration
  refine ⟨v, hWritten, fun sp => ?_⟩
  have hRead := Json.result_read hDelivers (sp.isText_text hRereadable 0)
  exact mapError_eq_ok_iff.mpr hRead

/-- Quotes, control characters and marks of the text itself come back, and so do unknown sides. -/
theorem read_written_marks :
    let r : Request Float :=
      ⟨[⟨.ofString "a \"\\\n\u0001.png", some 640, none⟩, .ofPath (.ofString "é,]\x7d.png")],
        some (.ofString "\t€\x7f.mp3"), ⟨.slideLeft, 0.8, .square1x1⟩, .ofString "out.mp4"⟩
    (∃ v, r.toValue = .ok v ∧ (Request.ofText (v.pretty 0).toUTF8).result = .ok r) ∧
      Config.ofText (Config.usual.toValue.pretty 0).toUTF8 = .ok .usual := by
  intro r
  have hPaths : r.Textual := by constructor <;> simp [r, Image.ofPath]
  have hDuration : ReadsBack 0.8 := Json.readsBack_of_toOption (by decide +kernel)
  have hPhoto : ReadsBack 2.0 := Json.readsBack_of_toOption (by decide +kernel)
  obtain ⟨v, hWritten, hRead⟩ := read_written.1 r hPaths hDuration
  have hConfig := read_written.2 .usual hPhoto .lined
  rw [Spacing.text_lined] at hConfig
  exact ⟨⟨v, hWritten, Spacing.text_lined 0 v ▸ hRead .lined⟩, hConfig⟩

end Diaporama
