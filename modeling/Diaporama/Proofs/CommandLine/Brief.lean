import Diaporama.CommandLine.Run
import Diaporama.Proofs.Json.Members

/-!
# Two ways to give a job

What a user asks for can be given as flags or as a request in a file. A request has a member where
the flags have a flag; its members come in any order, under any of their names and in any spelling.
Defaults are filled in by the flags, by each member of the settings and by the settings as a whole,
and both ways come to the same request.
-/

namespace Diaporama

open Json (Delivers Record RecordField Value)

/-! ## Texts in a request -/

theorem FilePath.delivers_reader (s : String) :
    Delivers FilePath.reader (.string s) (.ofString s) :=
  fun _ _ hText => (Json.delivers_text _ s hText).bind (.pure _ _)

theorem TransitionKind.delivers_reader (s : String) :
    Delivers TransitionKind.reader (.string s) (.select s) :=
  fun _ _ hText => (Json.delivers_text _ s hText).bind ((Json.Reads.notice _ _).bind (.pure _ _))

theorem AspectRatio.delivers_reader (s : String) :
    Delivers AspectRatio.reader (.string s) (.select s) :=
  fun _ _ hText => (Json.delivers_text _ s hText).bind ((Json.Reads.notice _ _).bind (.pure _ _))

namespace CommandLine

/-- What a user asks for; what is left out is `none`. -/
structure Brief where
  images : List String
  audio : Option String
  transition : Option String
  duration : Option Float
  aspect : Option String
  output : String

namespace Brief

def flags (b : Brief) (config : Option FilePath) (format : Option OutputFormat) : Flags :=
  { Flags.none with
    images := b.images.map .ofString
    audio := b.audio.map .ofString
    transition := b.transition
    duration := b.duration
    aspect := b.aspect
    out := some (.ofString b.output)
    config := config
    format := format }

def member {α : Type} (name : String) (f : α → Value) (given : Option α) :
    List (String × Value) :=
  given.toList.map fun a => (name, f a)

def imageDocument (path : String) : Value :=
  .object [("path", .string path)]

def imagesDocument (paths : List String) : Value :=
  .list (paths.map imageDocument)

def IsSettings (b : Brief) (v : Value) : Prop :=
  ∃ transition ∈ ["transition_kind", "transition"],
    ∃ duration ∈ ["transition_duration", "duration"],
      ∃ aspect ∈ ["aspect_ratio", "aspectRatio"], ∃ members, v = .object members ∧
        members.Perm (member transition .string b.transition ++ member duration .real b.duration ++
          member aspect .string b.aspect)

/-- The brief as a request. The pictures may be left out where there are none, and the settings
where there is no style. -/
def IsDocument (b : Brief) (v : Value) : Prop :=
  ∃ (pictures : Option (List String)) (settings : Option Value),
    pictures.getD [] = b.images ∧ (∀ s ∈ settings, b.IsSettings s) ∧
    (settings = none → b.transition = none ∧ b.duration = none ∧ b.aspect = none) ∧
    ∃ members, v = .object members ∧
      members.Perm (member "images" imagesDocument pictures ++ member "audio" .string b.audio ++
        member "settings" id settings ++ [("output", .string b.output)])

def settings (b : Brief) : Settings Float where
  transition := (b.transition.map TransitionKind.select).getD .usual
  duration := b.duration.getD Settings.usualDuration
  aspect := (b.aspect.map AspectRatio.select).getD .usual

def request (b : Brief) : Request Float where
  images := b.images.map fun path => .ofPath (.ofString path)
  audio := b.audio.map .ofString
  settings := b.settings
  output := .ofString b.output

/-! ## The request that is read -/

theorem delivers_image (path : String) :
    Delivers Image.record.reader (imageDocument path) (.ofPath (.ofString path)) :=
  Record.delivers_reader
    [.of "path" (.string path) (FilePath.ofString path) rfl (FilePath.delivers_reader path)]
    (.refl _) (List.pairwise_singleton _ _) (by simp [Image.record, RecordField.of]) rfl

theorem delivers_images (paths : List String) :
    Delivers (Json.Reader.list Image.record.reader) (imagesDocument paths)
      (paths.map fun path => .ofPath (.ofString path)) := by
  apply Json.delivers_list
  rw [List.forall₂_map_left_iff, List.forall₂_map_right_iff, List.forall₂_same]
  exact fun path _ => delivers_image path

section

variable {transition duration aspect : String}

def transitionEntry (hName : transition ∈ ["transition_kind", "transition"]) (s : String) :
    Settings.record.Entry :=
  .of transition (.string s) (TransitionKind.select s)
    (show Settings.record.field? transition = some Settings.record.fields[0] by
      rcases List.mem_pair.mp hName with rfl | rfl <;> rfl)
    (TransitionKind.delivers_reader s)

def durationEntry (hName : duration ∈ ["transition_duration", "duration"]) (x : Float) :
    Settings.record.Entry :=
  .of duration (.real x) x
    (show Settings.record.field? duration = some Settings.record.fields[1] by
      rcases List.mem_pair.mp hName with rfl | rfl <;> rfl)
    (Json.delivers_real x)

def aspectEntry (hName : aspect ∈ ["aspect_ratio", "aspectRatio"]) (s : String) :
    Settings.record.Entry :=
  .of aspect (.string s) (AspectRatio.select s)
    (show Settings.record.field? aspect = some Settings.record.fields[2] by
      rcases List.mem_pair.mp hName with rfl | rfl <;> rfl)
    (AspectRatio.delivers_reader s)

variable (hTransition : transition ∈ ["transition_kind", "transition"])
  (hDuration : duration ∈ ["transition_duration", "duration"])
  (hAspect : aspect ∈ ["aspect_ratio", "aspectRatio"])

def styleEntries (b : Brief) : List Settings.record.Entry :=
  b.transition.toList.map (transitionEntry hTransition) ++
    b.duration.toList.map (durationEntry hDuration) ++ b.aspect.toList.map (aspectEntry hAspect)

theorem pairwise_styleEntries (b : Brief) :
    (styleEntries hTransition hDuration hAspect b).Pairwise Record.Entry.Apart := by
  have hFirst (s : String) (x : Float) :
      (transitionEntry hTransition s).Apart (durationEntry hDuration x) :=
    ⟨fun _ => rfl, fun _ => rfl, fun _ => rfl⟩
  have hSecond (s r : String) : (transitionEntry hTransition s).Apart (aspectEntry hAspect r) :=
    ⟨fun _ => rfl, fun _ => rfl, fun _ => rfl⟩
  have hThird (x : Float) (r : String) :
      (durationEntry hDuration x).Apart (aspectEntry hAspect r) :=
    ⟨fun _ => rfl, fun _ => rfl, fun _ => rfl⟩
  rcases b with ⟨_, _, _ | _, _ | _, _ | _, _⟩ <;> simp [styleEntries, *]

theorem putAll_styleEntries (b : Brief) :
    Record.Entry.putAll (styleEntries hTransition hDuration hAspect b) Settings.record.draft =
      ⟨b.transition.map .select, b.duration, b.aspect.map .select⟩ := by
  rcases b with ⟨_, _, _ | _, _ | _, _ | _, _⟩ <;> rfl

end

theorem delivers_settings {b : Brief} {v : Value} (h : b.IsSettings v) :
    Delivers Settings.record.reader v b.settings := by
  obtain ⟨transition, hTransition, duration, hDuration, aspect, hAspect, members, rfl, hPerm⟩ := h
  refine Record.delivers_reader (styleEntries hTransition hDuration hAspect b) ?_
    (pairwise_styleEntries hTransition hDuration hAspect b) ?_ ?_
  · simp only [styleEntries, List.map_append, List.map_map]
    exact hPerm
  · simp [Settings.record, RecordField.of]
  · rw [putAll_styleEntries]
    rfl

def imagesEntry (paths : List String) : Request.record.Entry :=
  .of "images" (imagesDocument paths) (paths.map fun path => .ofPath (.ofString path))
    (show _ = some Request.record.fields[0] from rfl) (delivers_images paths)

def audioEntry (s : String) : Request.record.Entry :=
  .of "audio" (.string s) (some (.ofString s)) (show _ = some Request.record.fields[1] from rfl)
    (Json.delivers_optional (FilePath.delivers_reader s) nofun)

def settingsEntry {b : Brief} {v : Value} (h : b.IsSettings v) : Request.record.Entry :=
  .of "settings" v b.settings (show _ = some Request.record.fields[2] from rfl)
    (delivers_settings h)

def outputEntry (s : String) : Request.record.Entry :=
  .of "output" (.string s) (.ofString s) (show _ = some Request.record.fields[3] from rfl)
    (FilePath.delivers_reader s)

section

variable (b : Brief) (pictures : Option (List String)) {settings : Option Value}
  (hSettings : ∀ s ∈ settings, b.IsSettings s)

def requestEntries : List Request.record.Entry :=
  pictures.toList.map imagesEntry ++ b.audio.toList.map audioEntry ++
    (settings.pmap (fun _ h => settingsEntry h) hSettings).toList ++ [outputEntry b.output]

theorem pairwise_requestEntries :
    (requestEntries b pictures hSettings).Pairwise Record.Entry.Apart := by
  have hAudio (paths : List String) (s : String) : (imagesEntry paths).Apart (audioEntry s) :=
    ⟨fun _ => rfl, fun _ => rfl, fun _ => rfl⟩
  have hStyle (paths : List String) {v : Value} (h : b.IsSettings v) :
      (imagesEntry paths).Apart (settingsEntry h) :=
    ⟨fun _ => rfl, fun _ => rfl, fun _ => rfl⟩
  have hOutput (paths : List String) (s : String) : (imagesEntry paths).Apart (outputEntry s) :=
    ⟨fun _ => rfl, fun _ => rfl, fun _ => rfl⟩
  have hAudioStyle (s : String) {v : Value} (h : b.IsSettings v) :
      (audioEntry s).Apart (settingsEntry h) :=
    ⟨fun _ => rfl, fun _ => rfl, fun _ => rfl⟩
  have hAudioOutput (s t : String) : (audioEntry s).Apart (outputEntry t) :=
    ⟨fun _ => rfl, fun _ => rfl, fun _ => rfl⟩
  have hStyleOutput {v : Value} (h : b.IsSettings v) (s : String) :
      (settingsEntry h).Apart (outputEntry s) :=
    ⟨fun _ => rfl, fun _ => rfl, fun _ => rfl⟩
  unfold requestEntries
  cases pictures <;> cases settings <;> cases b.audio <;> simp [*]

theorem putAll_requestEntries :
    Record.Entry.putAll (requestEntries b pictures hSettings) Request.record.draft =
      ⟨pictures.map fun paths => paths.map fun path => .ofPath (.ofString path),
        b.audio.map fun s => some (.ofString s), settings.map fun _ => b.settings,
        some (.ofString b.output)⟩ := by
  unfold requestEntries
  cases pictures <;> cases settings <;> cases b.audio <;> rfl

end

/-- A document of the brief is read as its request, unless it leaves out the pictures. -/
theorem result_read {b : Brief} {v : Value} {text : ByteArray} (h : b.IsDocument v)
    (hText : v.IsText text) :
    (Json.read Request.record.reader text).result = .ok b.request ∨
      b.images = [] ∧
        (Json.read Request.record.reader text).result = .error (.missingField "images") := by
  obtain ⟨pictures, settings, hPictures, hSettings, hNone, members, rfl, hPerm⟩ := h
  have hMembers : members.Perm ((requestEntries b pictures hSettings).map Record.Entry.member) := by
    unfold requestEntries
    cases settings <;> simp only [List.map_append, List.map_map] <;> exact hPerm
  rw [Record.result_read _ hMembers (pairwise_requestEntries b pictures hSettings)
    (by simp [Request.record, RecordField.of]) hText, putAll_requestEntries]
  -- settings that are left out as a whole come to the same as an object without members
  have hUsual : (settings.map fun _ => b.settings).getD Settings.usual = b.settings := by
    cases settings with
    | none =>
      obtain ⟨hTransition, hDuration, hAspect⟩ := hNone rfl
      simp only [Brief.settings, hTransition, hDuration, hAspect]
      rfl
    | some s => rfl
  have hAudio : (b.audio.map fun s => some (FilePath.ofString s)).getD none =
      b.audio.map .ofString := by
    cases b.audio <;> rfl
  cases pictures with
  | none => exact .inr ⟨hPictures.symm, rfl⟩
  | some paths =>
    cases (show paths = b.images from hPictures)
    refine .inl ?_
    change Except.ok (⟨_, Option.getD _ _, Option.getD _ _, _⟩ : Request Float) = _
    rw [hUsual, hAudio]
    rfl

/-! ## The request of the flags -/

theorem select_usualTransition : TransitionKind.select Flags.usualTransition = .usual := by
  decide +kernel

theorem select_usualAspect : AspectRatio.select Flags.usualAspect = .usual := by
  decide +kernel

theorem settings_flags (b : Brief) (config : Option FilePath) (format : Option OutputFormat) :
    (b.flags config format).settings = b.settings := by
  have hTransition : TransitionKind.select (b.transition.getD Flags.usualTransition) =
      (b.transition.map TransitionKind.select).getD .usual := by
    rw [← select_usualTransition, Option.getD_map]
  have hAspect : AspectRatio.select (b.aspect.getD Flags.usualAspect) =
      (b.aspect.map AspectRatio.select).getD .usual := by
    rw [← select_usualAspect, Option.getD_map]
  unfold Flags.settings Brief.settings
  rw [Settings.mk.injEq]
  exact ⟨hTransition, rfl, hAspect⟩

end Brief

end CommandLine

end Diaporama
