import Diaporama.Proofs.Slideshow.Numbering

/-!
# What paths and pixel sizes do not decide

A job is made from the number of pictures, their style and whether there is sound. Paths reach only
the inputs and the output, and the arguments have one slot for each; every other argument is the
same whatever the files are called. The pixel sizes of pictures reach nothing but the log.
-/

namespace Diaporama

/-! ## Slots -/

/-- An argument as far as it does not depend on paths: its text, or the path that stands there. -/
inductive Slot where
  | text (text : String)
  | path (use : PathUse)
  deriving DecidableEq

namespace Slot

def use? : Slot → Option PathUse
  | path use => some use
  | text _ => none

@[simp] theorem use?_path (use : PathUse) : (path use).use? = some use := rfl

@[simp] theorem use?_text (s : String) : (text s).use? = none := rfl

/-- The slots of input `i`: a picture held for a time, or else the soundtrack. -/
def ofInput (hold? : Option Float) (i : Nat) : List Slot :=
  match hold? with
  | some hold =>
    [text "-loop", text "1", text "-t", text (Seconds.text hold), text "-i", path (.image i)]
  | none => [text "-i", path .audio]

end Slot

def Input.hold? {T : Type} : Input T → Option T
  | still _ hold => some hold
  | audio _ => none

namespace Job

/-- The slots behind the inputs: settings, and then the output path. -/
def outputSlots (j : Job Float) : List Slot :=
  (["-filter_complex", j.graph.expression, "-map", "[" ++ j.videoLink ++ "]"] ++
    audioMap j.audio ++ videoArgs j.encoder ++ audioArgs j.encoder j.audio).map .text ++
    [.path .output]

def slots (j : Job Float) : List Slot :=
  ((j.inputs.map Input.hold?).zipIdx.flatMap fun (hold?, i) => Slot.ofInput hold? i) ++
    j.outputSlots

theorem getLast?_slots (j : Job Float) : j.slots.getLast? = some (.path .output) := by
  rw [slots, outputSlots, ← List.append_assoc]
  exact List.getLast?_concat

end Job

namespace Request

section

variable {T : Type} (r : Request T)

def path? : PathUse → Option FilePath
  | .image i => r.images[i]?.map Image.path
  | .audio => r.audio
  | .output => some r.output

def fill : Slot → Option String
  | .text text => some text
  | .path use => (r.path? use).bind FilePath.text?

end

/-! ## Jobs -/

section

variable {T : Type} [Seconds T] {r r' : Request T} (c : Config.Checked T) (t : Timeline T)

theorem map_hold?_inputs_job :
    (r.job c t).inputs.map Input.hold? =
      List.replicate r.images.length (some t.window) ++
        List.replicate r.audio.toList.length none := by
  rw [inputs_job, List.map_append, List.map_map, List.map_map, ← List.map_const', ← List.map_const']
  rfl

/-- Two requests of the same shape: what is left of them without paths and pixel sizes. -/
structure SameShape (r r' : Request T) : Prop where
  settings : r'.settings = r.settings
  images : r'.images.length = r.images.length
  audio : r'.audio.isSome = r.audio.isSome

namespace SameShape

omit [Seconds T] in
theorem map_audio {α : Type} (h : r.SameShape r') (a : α) :
    r'.audio.map (fun _ => a) = r.audio.map fun _ => a := by
  have hPresent (audio : Option FilePath) :
      audio.map (fun _ => a) = if audio.isSome then some a else none := by
    cases audio <;> rfl
  rw [hPresent, hPresent, h.audio]

omit [Seconds T] in
theorem length_audio (h : r.SameShape r') : r'.audio.toList.length = r.audio.toList.length := by
  simpa [Option.toList_map] using congrArg (·.toList.length) (h.map_audio ())

theorem graph_job (h : r.SameShape r') : (r'.job c t).graph = (r.job c t).graph := by
  rw [job, job, h.settings, h.images, h.length_audio]

theorem audio_job (h : r.SameShape r') : (r'.job c t).audio = (r.job c t).audio := by
  rw [job, job, h.images, h.map_audio]

theorem hold?_job (h : r.SameShape r') :
    (r'.job c t).inputs.map Input.hold? = (r.job c t).inputs.map Input.hold? := by
  rw [map_hold?_inputs_job, map_hold?_inputs_job, h.images, h.length_audio]

theorem duration_job (h : r.SameShape r') : (r'.job c t).duration = (r.job c t).duration := by
  rw [job, job, h.settings, h.images]

theorem canvas_job (h : r.SameShape r') : (r'.job c t).canvas = (r.job c t).canvas := by
  rw [job, job, h.settings]

end SameShape

theorem job_images {images : List Image} (h : images.map Image.path = r.images.map Image.path) :
    { r with images }.job c t = r.job c t := by
  have hLength : images.length = r.images.length := by
    simpa using congrArg List.length h
  have hInputs : ({ r with images }.job c t).inputs = (r.job c t).inputs := by
    have hStills := congrArg (List.map (Input.still · t.window)) h
    rw [List.map_map, List.map_map] at hStills
    rw [inputs_job, inputs_job]
    exact congrArg (· ++ r.audio.toList.map .audio) hStills
  have hShape : r.SameShape { r with images } := ⟨rfl, hLength, rfl⟩
  calc
    { r with images }.job c t = { r.job c t with
        inputs := ({ r with images }.job c t).inputs
        graph := ({ r with images }.job c t).graph
        audio := ({ r with images }.job c t).audio
        duration := ({ r with images }.job c t).duration } := rfl
    _ = r.job c t := by
      rw [hInputs, hShape.graph_job, hShape.audio_job, hShape.duration_job]

end

/-! ## Arguments -/

variable {r r' : Request Float} {c : Config.Checked Float} {j j' : Job Float}

theorem SameShape.slots_job (h : r.SameShape r') (t : Timeline Float) :
    (r'.job c t).slots = (r.job c t).slots := by
  rw [Job.slots, Job.slots, Job.outputSlots, Job.outputSlots, h.hold?_job, h.graph_job, h.audio_job]
  rfl

theorem slots_job (t : Timeline Float) :
    (r.job c t).slots =
      (List.range r.images.length).flatMap (Slot.ofInput (some t.window)) ++
        r.audio.toList.flatMap (fun _ => Slot.ofInput none r.images.length) ++
        (r.job c t).outputSlots := by
  have hStills : (List.replicate r.images.length (some t.window)).zipIdx =
      (List.range r.images.length).map (some t.window, ·) :=
    List.ext_getElem (by simp) fun i _ _ => by simp
  rw [Job.slots, map_hold?_inputs_job, List.zipIdx_append, List.flatMap_append, hStills,
    List.flatMap_map]
  cases r.audio <;> simp

/-- The slots that take paths are those of the pictures in order, of the soundtrack and of the
output. -/
theorem filterMap_use?_slots_job (t : Timeline Float) :
    (r.job c t).slots.filterMap Slot.use? =
      (List.range r.images.length).map .image ++ r.audio.toList.map (fun _ => .audio) ++
        [.output] := by
  have hOutput : (r.job c t).outputSlots.filterMap Slot.use? = [.output] := by
    rw [Job.outputSlots, List.filterMap_append, List.filterMap_map]
    simp [Function.comp_def]
  have hStill : ∀ i, (Slot.ofInput (some t.window) i).filterMap Slot.use? = [.image i] :=
    fun i => rfl
  have hSound : ∀ i, (Slot.ofInput none i).filterMap Slot.use? = [.audio] := fun i => rfl
  rw [slots_job, List.filterMap_append, List.filterMap_append, List.filterMap_flatMap,
    List.filterMap_flatMap, hOutput]
  simp only [hStill, hSound, List.map_eq_flatMap]

/-- Filled with the paths of its request, the slots of a job are its arguments. -/
theorem Textual.map_fill_slots_job (h : r.Textual) (t : Timeline Float) :
    (r.job c t).slots.map r.fill = (r.job c t).args.map some := by
  have hStills : ((List.range r.images.length).flatMap (Slot.ofInput (some t.window))).map r.fill =
      ((r.images.map fun image => .still image.path t.window).flatMap Input.args).map some := by
    rw [List.map_flatMap, List.map_flatMap, List.flatMap_map, List.flatMap_def, List.flatMap_def]
    refine congrArg List.flatten (List.ext_getElem (by simp) fun i hi _ => ?_)
    have hi : i < r.images.length := by simpa using hi
    have hText := FilePath.text?_eq_some_display (h.images _ (List.getElem_mem hi))
    simp [Slot.ofInput, Input.args, fill, path?, hi, hText]
  have hSound : (r.audio.toList.flatMap fun _ => Slot.ofInput none r.images.length).map r.fill =
      ((r.audio.toList.map .audio).flatMap Input.args).map some := by
    cases hAudio : r.audio with
    | none => rfl
    | some path =>
        have hText := FilePath.text?_eq_some_display (h.audio path hAudio)
        simp [Slot.ofInput, Input.args, fill, path?, hAudio, hText]
  have hOutput : (r.job c t).outputSlots.map r.fill =
      ("-filter_complex" :: (r.job c t).graph.expression :: "-map" ::
        ("[" ++ (r.job c t).videoLink ++ "]") :: (Job.audioMap (r.job c t).audio ++
          Job.videoArgs (r.job c t).encoder ++
          Job.audioArgs (r.job c t).encoder (r.job c t).audio ++
          [(r.job c t).output.display])).map some := by
    have hText : r.output.text? = some (r.job c t).output.display :=
      FilePath.text?_eq_some_display h.output
    have hFixed (xs : List String) : (xs.map Slot.text).map r.fill = xs.map some := by
      rw [List.map_map]
      rfl
    rw [Job.outputSlots, List.map_append, hFixed]
    simp [fill, path?, hText]
  rw [slots_job, Job.args_eq, inputs_job, List.map_append, List.map_append, List.map_append,
    List.flatMap_append, List.map_append, hStills, hSound, hOutput]

theorem length_of_map_fill {slots : List Slot} {args : List String}
    (hArgs : args.map some = slots.map r.fill) : args.length = slots.length := by
  simpa using congrArg List.length hArgs

theorem getElem?_of_map_fill {slots : List Slot} {args : List String}
    (hArgs : args.map some = slots.map r.fill) {i : Nat} {text : String}
    (hSlot : slots[i]? = some (.text text)) : args[i]? = some text := by
  have hPlace := congrArg (·[i]?) hArgs
  simpa [hSlot, fill] using hPlace

/-- Two requests of one shape are assembled into one structure, whatever their files are called and
how large their pictures are. Their arguments agree but for the slots of the pictures, of the
soundtrack and of the output, and each of these holds its own path as it is. -/
theorem assemble_independent (h : (r.assemble c).result = .ok j)
    (h' : (r'.assemble c).result = .ok j') (hShape : r.SameShape r') :
    (j'.graph = j.graph ∧ j'.canvas = j.canvas ∧ j'.duration = j.duration ∧
      j'.inputs.map Input.hold? = j.inputs.map Input.hold? ∧ j'.audio = j.audio ∧
      j'.encoder = j.encoder ∧ j'.videoLink = j.videoLink) ∧
    (∃ slots : List Slot,
      slots.filterMap Slot.use? = (List.range r.images.length).map .image ++
        r.audio.toList.map (fun _ => PathUse.audio) ++ [.output] ∧
      slots.getLast? = some (.path .output) ∧
      j.args.map some = slots.map r.fill ∧ j'.args.map some = slots.map r'.fill ∧
      j'.args.length = j.args.length ∧
      ∀ (i : Nat) text, slots[i]? = some (Slot.text text) → j.args[i]? = some text ∧ j'.args[i]? = some text) ∧
    ∀ images, images.map Image.path = r.images.map Image.path →
      ({ r with images }.assemble c).result = .ok j := by
  obtain ⟨⟨hImages, hOutput, hPaths⟩, -⟩ := result_assemble_eq_ok_iff.mp h
  obtain ⟨⟨-, -, hPaths'⟩, -⟩ := result_assemble_eq_ok_iff.mp h'
  obtain ⟨t, hTimes, rfl, rfl⟩ := exists_timeline h h' (by rw [hShape.settings])
  have hArgs : (r.job c t).args.map some = (r.job c t).slots.map r.fill :=
    (hPaths.map_fill_slots_job t).symm
  have hArgs' : (r'.job c t).args.map some = (r.job c t).slots.map r'.fill := by
    rw [← hShape.slots_job t, hPaths'.map_fill_slots_job t]
  have hLength : (r'.job c t).args.length = (r.job c t).args.length :=
    (length_of_map_fill hArgs').trans (length_of_map_fill hArgs).symm
  refine ⟨⟨hShape.graph_job c t, hShape.canvas_job c t, hShape.duration_job c t,
      hShape.hold?_job c t, hShape.audio_job c t, rfl, rfl⟩,
    ⟨(r.job c t).slots, filterMap_use?_slots_job t, (r.job c t).getLast?_slots, hArgs, hArgs',
      hLength, fun i text hSlot =>
        ⟨getElem?_of_map_fill hArgs hSlot, getElem?_of_map_fill hArgs' hSlot⟩⟩,
    fun images hSame => ?_⟩
  have hNonempty : images ≠ [] := by
    rintro rfl
    exact hImages (List.map_eq_nil_iff.mp hSame.symm)
  have hTexts : ∀ image ∈ images, image.path.text?.isSome := by
    intro image hImage
    obtain ⟨image', hImage', hPath⟩ := List.mem_map.mp (hSame ▸ List.mem_map_of_mem hImage)
    exact hPath ▸ hPaths.images image' hImage'
  exact result_assemble_eq_ok_iff.mpr
    ⟨⟨hNonempty, hOutput, ⟨hTexts, hPaths.audio, hPaths.output⟩⟩, t, hTimes, job_images c t hSame⟩

/-- Files called like a link, an option and a filter, and a picture of known size. -/
theorem assemble_independent_names :
    let t : Timeline Float := ⟨2.0, 0.8, by decide, by decide⟩
    let r (image : Image) (audio output : String) : Request Float :=
      ⟨[image], some (.ofString audio), ⟨.fade, 0.8, .usual⟩, .ofString output⟩
    let plain := r (.ofPath (.ofString "a.png")) "a.mp3" "out.mp4"
    let odd := r ⟨.ofString "[v0];[f0]", some 4, some 3⟩ "-i" "format=yuv420p,null"
    (plain.assemble .usual).result = .ok (plain.job .usual t) ∧
      (odd.assemble .usual).result = .ok (odd.job .usual t) ∧ plain.SameShape odd ∧
      (odd.job .usual t).graph = (plain.job .usual t).graph ∧
      (odd.job .usual t).args.length = (plain.job .usual t).args.length ∧
      ((r ⟨.ofString "a.png", some 0, some 9⟩ "a.mp3" "out.mp4").assemble .usual).result =
        .ok (plain.job .usual t) := by
  intro t r plain odd
  have hJob (image : Image) (hImage : image.path.text?.isSome) (audio output : String)
      (hOutput : (FilePath.ofString output).isEmpty = false) :
      ((r image audio output).assemble .usual).result =
        .ok ((r image audio output).job .usual t) :=
    result_assemble_eq_ok_iff.mpr
      ⟨⟨by simp [r], hOutput, ⟨by simpa [r] using hImage, by simp [r], by simp [r]⟩⟩, t,
        ⟨rfl, rfl⟩, rfl⟩
  have hPlain := hJob (.ofPath (.ofString "a.png")) (by simp [Image.ofPath]) "a.mp3" "out.mp4"
    (by decide)
  have hOdd := hJob ⟨.ofString "[v0];[f0]", some 4, some 3⟩ (by simp) "-i" "format=yuv420p,null"
    (by decide)
  have hShape : plain.SameShape odd := ⟨rfl, rfl, rfl⟩
  obtain ⟨⟨hGraph, -⟩, ⟨-, -, -, -, -, hLength, -⟩, hSizes⟩ :=
    assemble_independent hPlain hOdd hShape
  exact ⟨hPlain, hOdd, hShape, hGraph, hLength, hSizes _ rfl⟩

end Request

end Diaporama
