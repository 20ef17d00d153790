import Diaporama.Proofs.Encoder.Reading
import Diaporama.Proofs.Slideshow.Arguments

/-!
# The orders in a job's arguments

The encoder reads a job's inputs, each under its own settings, and one output under the graph, the
maps and the encoder settings, whatever texts stand in paths and settings. The output path alone has
no option in front of it: where it looks like an option itself, no output is left.
-/

namespace Diaporama

open Argument

namespace Input

def stated : Input Float → StatedFile
  | still path hold =>
    ⟨[.value .loop "1", .value .duration (Seconds.text hold)], path.display⟩
  | audio path => ⟨[], path.display⟩

theorem args_eq_inputWords (i : Input Float) :
    i.args = (Orders.inputWords i.stated).flatMap Word.args := by
  cases i <;> rfl

theorem flatMap_args (is : List (Input Float)) :
    is.flatMap args = ((is.map stated).flatMap Orders.inputWords).flatMap Word.args := by
  simp only [List.flatMap_assoc, List.flatMap_map, ← args_eq_inputWords]

end Input

namespace Job

/-- The streams that go into the output: the finished picture, and the sound where there is one. -/
def mapSettings (j : Job Float) : List Setting :=
  .value .map ("[" ++ j.videoLink ++ "]") ::
    j.audio.toList.map fun input => .value .map (toString input ++ ":a")

def pictureSettings (e : Encoder) : List Setting :=
  [.value .videoCodec e.videoCodec, .value .preset e.preset, .value .crf (toString e.crf),
    .value .pixels e.pixels]

def soundSettings (j : Job Float) : List Setting :=
  if j.hasAudio then
    [.value .audioCodec j.encoder.audioCodec, .value .audioBitrate j.encoder.audioBitrate, .shortest]
  else []

def settings (j : Job Float) : List Setting :=
  .value .graph j.graph.expression :: j.mapSettings ++ pictureSettings j.encoder ++ j.soundSettings

def orders (j : Job Float) : Orders where
  inputs := j.inputs.map Input.stated
  outputs := [⟨j.settings, j.output.display⟩]
  trailing := []

def words (j : Job Float) : List Word :=
  (j.inputs.map Input.stated).flatMap Orders.inputWords ++ j.settings.map .setting

theorem args_eq_words (j : Job Float) :
    j.args = j.words.flatMap Word.args ++ [j.output.display] := by
  have hSettings : "-filter_complex" :: j.graph.expression :: "-map" ::
      ("[" ++ j.videoLink ++ "]") :: (audioMap j.audio ++ videoArgs j.encoder ++
        audioArgs j.encoder j.audio) = (j.settings.map .setting).flatMap Word.args := by
    cases hAudio : j.audio <;>
      simp [settings, mapSettings, pictureSettings, soundSettings, hasAudio, hAudio, Word.args,
        Key.name, audioMap, videoArgs, audioArgs]
  rw [words, List.flatMap_append, ← Input.flatMap_args, ← hSettings]
  simp [args]

theorem unmistakable_words (j : Job Float) : ∀ w ∈ j.words, w.Unmistakable := by
  have hOutput : ∀ w ∈ j.words, w.output? = none := by
    intro w hw
    rcases List.mem_append.mp hw with hw | hw
    · obtain ⟨file, -, hw⟩ := List.mem_flatMap.mp hw
      rcases List.mem_append.mp hw with hw | hw
      · obtain ⟨s, -, rfl⟩ := List.mem_map.mp hw
        rfl
      · rw [List.mem_singleton.mp hw]
        rfl
    · obtain ⟨s, -, rfl⟩ := List.mem_map.mp hw
      rfl
  intro w hw path hPath
  rw [hOutput w hw] at hPath
  cases hPath

theorem words?_args (j : Job Float) :
    words? j.args = (words? [j.output.display]).map (j.words ++ ·) := by
  rw [args_eq_words, words?_flatMap_args_append j.unmistakable_words]

theorem ofWords_words_append (j : Job Float) (ws : List Word) :
    Orders.ofWords [] (j.words ++ ws) =
      { Orders.ofWords j.settings ws with
        inputs := j.inputs.map Input.stated ++ (Orders.ofWords j.settings ws).inputs } := by
  rw [words, List.append_assoc, Orders.ofWords_inputs_append, Orders.ofWords_settings_append,
    List.nil_append]

theorem read?_args_of_not_isOption {j : Job Float} (h : isOption j.output.display = false) :
    Orders.read? j.args = .ok j.orders := by
  have hLast : words? [j.output.display] = .ok [.output j.output.display] := by
    simp [words?, h, Except.map]
  rw [Orders.read?, words?_args, hLast]
  simp [Except.map, ofWords_words_append, Orders.ofWords, orders]

/-- An output path that looks like an option leaves no output file, if anything is read at all. -/
theorem outputs_eq_nil_of_isOption {j : Job Float} (h : isOption j.output.display = true)
    {orders : Orders} (hRead : Orders.read? j.args = .ok orders) : orders.outputs = [] := by
  rw [Orders.read?, words?_args] at hRead
  cases hLast : words? [j.output.display] with
  | error fault =>
      rw [hLast] at hRead
      cases hRead
  | ok ws =>
      rw [hLast] at hRead
      obtain rfl : Orders.ofWords [] (j.words ++ ws) = orders := Except.ok.inj hRead
      have hPaths := Orders.path_outputs_ofWords j.settings ws
      rw [output?_of_words?_option h hLast] at hPaths
      rw [ofWords_words_append]
      exact List.map_eq_nil_iff.mp hPaths

end Job

namespace Request

variable {r : Request Float} {c : Config.Checked Float} {j : Job Float}

/-- The arguments of an assembled job are read as its orders exactly when its output path does not
look like an option; otherwise no output file is read. All paths stand in them as they are. -/
theorem assemble_args_read (h : (r.assemble c).result = .ok j) :
    (∀ i ∈ j.inputs, i.path.text? = some i.stated.path) ∧
    j.output.text? = some j.output.display ∧
    (Orders.read? j.args = .ok j.orders ↔ isOption j.output.display = false) ∧
    (isOption j.output.display = true →
      ∀ orders, Orders.read? j.args = .ok orders → orders.outputs = []) := by
  obtain ⟨⟨-, -, hPaths⟩, t, -, rfl⟩ := result_assemble_eq_ok_iff.mp h
  have hText : ∀ {p : FilePath}, p.text?.isSome → p.text? = some p.display := by
    intro p hp
    obtain ⟨s, hs⟩ := Option.isSome_iff_exists.mp hp
    rw [FilePath.display_eq_of_text? hs, hs]
  refine ⟨fun i hi => ?_, hText hPaths.output, ⟨fun hRead => ?_, Job.read?_args_of_not_isOption⟩,
    fun hOption orders => Job.outputs_eq_nil_of_isOption hOption⟩
  · have hInput := hText (hPaths.inputs t i hi)
    cases i <;> exact hInput
  · by_contra hOption
    have hNone := Job.outputs_eq_nil_of_isOption (Bool.not_eq_false _ ▸ hOption) hRead
    cases hNone

/-- Paths that look like options, and an output that is a hyphen alone. -/
theorem assemble_args_read_hyphens :
    let t : Timeline Float := ⟨2.0, 0.8, by decide, by decide⟩
    let r : Request Float := ⟨[.ofPath (.ofString "-i"), .ofPath (.ofString "-shortest")],
      some (.ofString "-map"), ⟨.fade, 0.8, .usual⟩, .ofString "-"⟩
    (r.assemble .usual).result = .ok (r.job .usual t) ∧
      Orders.read? (r.job .usual t).args = .ok (r.job .usual t).orders ∧
      (r.job .usual t).orders.inputs.map StatedFile.path = ["-i", "-shortest", "-map"] ∧
      (r.job .usual t).orders.outputs.map StatedFile.path = ["-"] := by
  intro t r
  have hJob : (r.assemble .usual).result = .ok (r.job .usual t) :=
    result_assemble_eq_ok_iff.mpr
      ⟨⟨by simp [r], by decide, ⟨by simp [r, Image.ofPath], by simp [r], by simp [r]⟩⟩, t,
        ⟨rfl, rfl⟩, rfl⟩
  have hRead := (assemble_args_read hJob).2.2.1.mpr (by decide)
  exact ⟨hJob, hRead, by decide, by decide⟩

/-- An output file whose name begins with a hyphen is taken for an option. -/
theorem read?_args_hyphen_output :
    let t : Timeline Float := ⟨2.0, 0.8, by decide, by decide⟩
    let r : Request Float :=
      ⟨[.ofPath (.ofString "a.png")], none, ⟨.dissolve, 0.8, .usual⟩, .ofString "-out.mp4"⟩
    (r.assemble .usual).result = .ok (r.job .usual t) ∧
      Orders.read? (r.job .usual t).args = .error (.unknownOption "-out.mp4") := by
  intro t r
  have hJob : (r.assemble .usual).result = .ok (r.job .usual t) :=
    result_assemble_eq_ok_iff.mpr
      ⟨⟨by simp [r], by decide, ⟨by simp [r, Image.ofPath], by simp [r], by simp [r]⟩⟩, t,
        ⟨rfl, rfl⟩, rfl⟩
  have hOption : isOption "-out.mp4" = true := by decide
  have hLast : words? ["-out.mp4"] = .error (.unknownOption "-out.mp4") := by
    simp [words?, hOption, valued?, Key.ofName?, Key.name]
  have hOutput : (r.job .usual t).output.display = "-out.mp4" :=
    FilePath.display_eq_of_text? (FilePath.text?_ofString _)
  exact ⟨hJob, by rw [Orders.read?, Job.words?_args, hOutput, hLast]; rfl⟩

end Request

end Diaporama
