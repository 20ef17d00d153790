import Diaporama.Proofs.Slideshow.Numbering

/-!
# Adding a soundtrack

A soundtrack changes a job in two fields: there is one more input, and its sound is mapped. The
picture does not hear of it. In the arguments this shows in three places, and everything around them
stays as it is.
-/

namespace Diaporama

open Argument

/-! ## Jobs -/

namespace Job

variable {T : Type}

/-- The job `k` is the silent job `j` with a soundtrack as its last input. -/
structure Sounded (j k : Job T) (soundtrack : FilePath) : Prop where
  silent : j.audio = none
  audio : k.audio = some j.inputs.length
  inputs : k.inputs = j.inputs ++ [.audio soundtrack]
  nodes : k.graph.nodes = j.graph.nodes
  videoLink : k.videoLink = j.videoLink
  encoder : k.encoder = j.encoder
  output : k.output = j.output
  canvas : k.canvas = j.canvas
  duration : k.duration = j.duration

def pictureArgs (j : Job Float) : List String :=
  ["-filter_complex", j.graph.expression, "-map", "[" ++ j.videoLink ++ "]"]

variable {j k : Job Float} {soundtrack : FilePath}

theorem args_of_audio_eq_none (h : j.audio = none) :
    j.args = j.inputs.flatMap Input.args ++ j.pictureArgs ++ videoArgs j.encoder ++
      [j.output.display] := by
  simp [args, pictureArgs, h, audioMap, audioArgs]

/-- The arguments with a soundtrack are those without it and three insertions. -/
theorem Sounded.args (h : j.Sounded k soundtrack) :
    k.args = j.inputs.flatMap Input.args ++ ["-i", soundtrack.display] ++ j.pictureArgs ++
      ["-map", toString j.inputs.length ++ ":a"] ++ videoArgs j.encoder ++
      ["-c:a", j.encoder.audioCodec, "-b:a", j.encoder.audioBitrate, "-shortest"] ++
      [j.output.display] := by
  have hExpression : k.graph.expression = j.graph.expression := by
    rw [Graph.expression, Graph.expression, h.nodes]
  have hInputs : k.inputs.flatMap Input.args =
      j.inputs.flatMap Input.args ++ ["-i", soundtrack.display] := by
    simp [h.inputs, Input.args]
  rw [Job.args, hInputs, hExpression, h.videoLink, h.audio, h.encoder, h.output]
  simp [pictureArgs, audioMap, audioArgs]

theorem words?_flatMap_args_inputs (j : Job Float) :
    words? (j.inputs.flatMap Input.args) =
      .ok ((j.inputs.map Input.stated).flatMap Orders.inputWords) := by
  rw [Input.flatMap_args]
  exact words?_flatMap_args fun w hw => j.unmistakable_words w (List.mem_append_left _ hw)

theorem not_mem_words_of_audio_eq_none (h : j.audio = none) :
    (∀ key ∈ [Key.audioCodec, .audioBitrate], j.words.filterMap (Word.value? key) = []) ∧
      .setting .shortest ∉ j.words := by
  have hSettings : j.settings = .value .graph j.graph.expression ::
      .value .map ("[" ++ j.videoLink ++ "]") :: pictureSettings j.encoder := by
    simp [settings, mapSettings, soundSettings, hasAudio, h]
  constructor
  · intro key hKey
    have hKeys : key ≠ .loop ∧ key ≠ .duration := by
      revert hKey
      cases key <;> decide
    rw [j.filterMap_value?_words hKeys.1 hKeys.2, hSettings]
    revert hKey
    cases key <;> simp [pictureSettings, Word.value?]
  · have hInput (i : Input Float) : .setting .shortest ∉ Orders.inputWords i.stated := by
      cases i <;> simp [Input.stated, Orders.inputWords]
    rw [words, hSettings]
    simp [hInput, pictureSettings]

end Job

/-! ## Requests -/

namespace Request

section

variable {T : Type} [Seconds T] (r : Request T) (c : Config.Checked T) (t : Timeline T)

omit [Seconds T] in
theorem textual_audio_iff {a : FilePath} (ha : a.text?.isSome) :
    { r with audio := some a }.Textual ↔ { r with audio := none }.Textual := by
  constructor
  · rintro ⟨hImages, -, hOutput⟩
    exact ⟨hImages, by simp, hOutput⟩
  · rintro ⟨hImages, -, hOutput⟩
    exact ⟨hImages, by simpa using ha, hOutput⟩

theorem exists_assemble_audio_iff {a : FilePath} (ha : a.text?.isSome) :
    (∃ k, ({ r with audio := some a }.assemble c).result = .ok k) ↔
      ∃ j, ({ r with audio := none }.assemble c).result = .ok j := by
  simp only [result_assemble_eq_ok_iff, r.textual_audio_iff ha]
  constructor
  · rintro ⟨-, hChecks, t, hTimes, -⟩
    exact ⟨_, hChecks, t, hTimes, rfl⟩
  · rintro ⟨-, hChecks, t, hTimes, -⟩
    exact ⟨_, hChecks, t, hTimes, rfl⟩

theorem sounded_job (a : FilePath) :
    ({ r with audio := none }.job c t).Sounded ({ r with audio := some a }.job c t) a where
  silent := rfl
  audio := by
    rw [inputs_job]
    simp [job]
  inputs := by
    rw [inputs_job, inputs_job]
    simp
  nodes := by
    apply Array.toList_inj.mp
    rw [job, job, toList_nodes_slideshowGraph, toList_nodes_slideshowGraph]
  videoLink := rfl
  encoder := rfl
  output := rfl
  canvas := rfl
  duration := rfl

end

theorem length_flatMap_args_still (r : Request Float) (hold : Float) :
    ((r.images.map fun image => .still image.path hold).flatMap Input.args).length =
      6 * r.images.length := by
  simp [List.flatMap_map, Input.args, List.length_flatMap, Nat.mul_comm]

/-- Whether a request is assembled does not depend on its soundtrack, and neither does the picture.
The soundtrack is inserted into the arguments as the input behind the pictures, as a map behind that
of the picture, and with its settings in front of the output; a silent job tells nothing of it. -/
theorem assemble_soundtrack (r : Request Float) (c : Config.Checked Float) {a : FilePath}
    {text : String} (ha : a.text? = some text) :
    let silent := { r with audio := none }
    let sounding := { r with audio := some a }
    ((∃ k, (sounding.assemble c).result = .ok k) ↔ ∃ j, (silent.assemble c).result = .ok j) ∧
    ∀ j k, (silent.assemble c).result = .ok j → (sounding.assemble c).result = .ok k →
      (k.graph.nodes = j.graph.nodes ∧ k.canvas = j.canvas ∧ k.duration = j.duration ∧
        k.encoder = j.encoder ∧ k.output = j.output) ∧
      ∃ stills picture settings out,
        j.args = stills ++ picture ++ settings ++ [out] ∧
        k.args = stills ++ ["-i", text] ++ picture ++
          ["-map", toString r.images.length ++ ":a"] ++ settings ++
          ["-c:a", j.encoder.audioCodec, "-b:a", j.encoder.audioBitrate, "-shortest"] ++ [out] ∧
        picture = ["-filter_complex", j.graph.expression, "-map", "[outv]"] ∧
        r.output.text? = some out ∧
        stills.length = 6 * r.images.length ∧
        (∃ words, words? stills = .ok words ∧ words.filterMap (Word.value? .graph) = []) ∧
        ∃ words, words? (stills ++ picture ++ settings) = .ok words ∧
          (words.filterMap Word.input?).map some = r.images.map (·.path.text?) ∧
          words.filterMap (Word.value? .map) = ["[outv]"] ∧
          (∀ key ∈ [Key.audioCodec, .audioBitrate], words.filterMap (Word.value? key) = []) ∧
          .setting .shortest ∉ words := by
  intro silent sounding
  refine ⟨r.exists_assemble_audio_iff c (by rw [ha]; rfl), fun j k hSilent hSounding => ?_⟩
  obtain ⟨⟨-, -, hPaths⟩, -⟩ := result_assemble_eq_ok_iff.mp hSilent
  obtain ⟨t, -, rfl, rfl⟩ := exists_timeline hSilent hSounding rfl
  set j := silent.job c t
  have hSounded : j.Sounded (sounding.job c t) a := r.sounded_job c t a
  have hInputs : j.inputs = r.images.map fun image => .still image.path t.window := by
    simpa [silent] using silent.inputs_job c t
  have hLength : j.inputs.length = r.images.length := by rw [hInputs, List.length_map]
  obtain ⟨out, hOut⟩ := Option.isSome_iff_exists.mp hPaths.output
  have hDisplay : j.output.display = out := FilePath.display_eq_of_text? hOut
  have hArgs := Job.args_of_audio_eq_none hSounded.silent
  have hFront : j.inputs.flatMap Input.args ++ j.pictureArgs ++ Job.videoArgs j.encoder =
      j.words.flatMap Word.args :=
    List.append_cancel_right (hArgs.symm.trans j.args_eq_words)
  obtain ⟨hSound, hShortest⟩ := Job.not_mem_words_of_audio_eq_none hSounded.silent
  refine ⟨⟨hSounded.nodes, hSounded.canvas, hSounded.duration, hSounded.encoder, hSounded.output⟩,
    j.inputs.flatMap Input.args, j.pictureArgs, Job.videoArgs j.encoder, out, hDisplay ▸ hArgs, ?_,
    rfl, hOut, hInputs ▸ r.length_flatMap_args_still t.window,
    ⟨_, j.words?_flatMap_args_inputs,
      Input.filterMap_value?_stated (by decide) (by decide) j.inputs⟩,
    j.words, hFront ▸ j.words?_flatMap_args_words, ?_, ?_, hSound, hShortest⟩
  · rw [← hLength, ← hDisplay, ← FilePath.display_eq_of_text? ha]
    exact hSounded.args
  · rw [hPaths.map_some_input?_words c t, hInputs, List.map_map]
    rfl
  · rw [Job.filterMap_map_words, hSounded.silent]
    rfl

/-- A soundtrack called like the option that follows it, under a picture called like one. -/
theorem assemble_soundtrack_misnamed :
    let a := FilePath.ofString "-filter_complex"
    let t : Timeline Float := ⟨2.0, 0.8, by decide, by decide⟩
    let r : Request Float :=
      ⟨[.ofPath (.ofString "-shortest")], none, ⟨.fade, 0.8, .usual⟩, .ofString "out.mp4"⟩
    let j := r.job .usual t
    let k := { r with audio := some a }.job .usual t
    a.text? = some "-filter_complex" ∧ (r.assemble .usual).result = .ok j ∧
      ({ r with audio := some a }.assemble .usual).result = .ok k ∧
      k.graph.nodes = j.graph.nodes ∧
      ∃ stills picture settings out, j.args = stills ++ picture ++ settings ++ [out] ∧
        k.args = stills ++ ["-i", "-filter_complex"] ++ picture ++ ["-map", "1:a"] ++ settings ++
          ["-c:a", "aac", "-b:a", "192k", "-shortest"] ++ [out] ∧
        stills.length = 6 := by
  intro a t r j k
  have ha : a.text? = some "-filter_complex" := FilePath.text?_ofString _
  have hOutput : r.output.isEmpty = false := by decide
  have hJob (audio : Option FilePath) (hAudio : ∀ path ∈ audio, path.text?.isSome) :
      ({ r with audio }.assemble .usual).result = .ok ({ r with audio }.job .usual t) :=
    result_assemble_eq_ok_iff.mpr
      ⟨⟨by simp [r], hOutput, ⟨by simp [r, Image.ofPath], hAudio, by simp [r]⟩⟩, t,
        ⟨rfl, rfl⟩, rfl⟩
  have hSilent := hJob none (by simp)
  have hSounding := hJob (some a) (by simp [ha])
  obtain ⟨⟨hNodes, -⟩, stills, picture, settings, out, hArgs, hArgs', -, -, hLength, -⟩ :=
    (assemble_soundtrack r .usual ha).2 j k hSilent hSounding
  have hMap : toString r.images.length ++ ":a" = "1:a" := by decide
  rw [hMap] at hArgs'
  exact ⟨ha, hSilent, hSounding, hNodes, stills, picture, settings, out, hArgs, hArgs', hLength⟩

end Request

end Diaporama
