import Diaporama.Proofs.Slideshow.Job

/-!
# What assembly decides

A request is refused for one of a few reasons, looked for in a fixed order, and for no other: the
graph of an accepted request is never refused, whatever its pictures, style and times are.
-/

namespace Diaporama

/-! ## Positive doubles -/

namespace Seconds

open Float.Model

theorem unpack_zero : (0.0 : Float).toModel.unpack = .zero .positive := by rfl

theorem lt_iff_unpack (x y : Float) : x < y ↔ x.toModel.unpack.lt y.toModel.unpack = true :=
  decide_eq_true_iff (p := x.toModel < y.toModel)

theorem le_iff_unpack (x y : Float) : x ≤ y ↔ x.toModel.unpack.le y.toModel.unpack = true :=
  decide_eq_true_iff (p := x.toModel ≤ y.toModel)

theorem isPositive_iff (x : Float) : isPositive x = true ↔ x.isFinite = true ∧ 0.0 < x := by
  rw [isPositive, instFloat, Bool.and_eq_true, decide_eq_true_iff]

theorem unpack_le_zero {u : UnpackedFloat} (h : u.isFinite = true) :
    u.le (.zero .positive) = !(UnpackedFloat.zero .positive).lt u := by
  cases u with
  | infinity sign => cases h
  | notANumber => cases h
  | zero sign => rfl
  | finite sign mantissa exponent hMantissa => cases sign <;> rfl

/-- A double fails to be positive by not being finite or by lying at or below zero. -/
theorem isPositive_eq_false_iff (x : Float) :
    isPositive x = false ↔ x.isFinite = false ∨ x ≤ 0.0 := by
  rw [← Bool.not_eq_true, isPositive_iff, not_and_or, Bool.not_eq_true]
  cases hFinite : x.isFinite with
  | false => simp
  | true => simp [lt_iff_unpack, le_iff_unpack, unpack_zero, unpack_le_zero hFinite]

end Seconds

/-! ## The checks of a request -/

namespace Request

variable {T : Type}

structure Textual (r : Request T) : Prop where
  images : ∀ image ∈ r.images, image.path.text?.isSome
  audio : ∀ path ∈ r.audio, path.text?.isSome
  output : r.output.text?.isSome

/-- The first path without text: of the images in order, then of the soundtrack, then the output. -/
inductive FirstTextless (r : Request T) : PathUse → FilePath → Prop
  | image {i : Nat} {image : Image} (hImage : r.images[i]? = some image)
      (hText : image.path.text? = none)
      (hBefore : ∀ j < i, ∀ before, r.images[j]? = some before → before.path.text?.isSome) :
      FirstTextless r (.image i) image.path
  | audio {path : FilePath} (hAudio : r.audio = some path) (hText : path.text? = none)
      (hImages : ∀ image ∈ r.images, image.path.text?.isSome) : FirstTextless r .audio path
  | output (hText : r.output.text? = none)
      (hImages : ∀ image ∈ r.images, image.path.text?.isSome)
      (hAudio : ∀ path ∈ r.audio, path.text?.isSome) : FirstTextless r .output r.output

variable {r : Request T}

theorem find?_images_eq_some_iff {images : List Image} {entry : PathUse × FilePath} :
    (images.zipIdx.map fun (image, index) => (PathUse.image index, image.path)).find?
        (fun entry => entry.2.text?.isNone) = some entry ↔
      ∃ i image, entry = (.image i, image.path) ∧ images[i]? = some image ∧
        image.path.text? = none ∧
        ∀ j < i, ∀ before, images[j]? = some before → before.path.text?.isSome := by
  rw [List.find?_eq_some_iff_getElem]
  simp only [List.length_map, List.length_zipIdx, List.getElem_map, List.getElem_zipIdx, Nat.zero_add]
  constructor
  · rintro ⟨hText, i, hi, rfl, hBefore⟩
    refine ⟨i, images[i], rfl, List.getElem?_eq_getElem hi, by simpa using hText, ?_⟩
    intro j hj before hImage
    obtain ⟨hLength, rfl⟩ := List.getElem?_eq_some_iff.mp hImage
    simpa [Option.isSome_iff_ne_none] using hBefore j hj
  · rintro ⟨i, image, rfl, hImage, hText, hBefore⟩
    obtain ⟨hi, rfl⟩ := List.getElem?_eq_some_iff.mp hImage
    refine ⟨by simpa using hText, i, hi, rfl, fun j hj => ?_⟩
    have hEarlier := hBefore j hj images[j] (List.getElem?_eq_getElem (Nat.lt_trans hj hi))
    simpa [Option.isSome_iff_ne_none] using hEarlier

theorem find?_images_eq_none_iff {images : List Image} :
    (images.zipIdx.map fun (image, index) => (PathUse.image index, image.path)).find?
        (fun entry => entry.2.text?.isNone) = none ↔
      ∀ image ∈ images, image.path.text?.isSome := by
  rw [List.find?_eq_none, List.forall_mem_map]
  conv_rhs => rw [← List.zipIdx_map_fst 0 images, List.forall_mem_map]
  simp [Option.isSome_iff_ne_none]

theorem find?_audio_eq_none_iff {audio : Option FilePath} :
    (audio.toList.map (PathUse.audio, ·)).find? (fun entry => entry.2.text?.isNone) = none ↔
      ∀ path ∈ audio, path.text?.isSome := by
  cases audio <;> simp [Option.isSome_iff_ne_none]

theorem find?_paths_eq_none_iff :
    r.paths.find? (fun entry => entry.2.text?.isNone) = none ↔ r.Textual := by
  rw [paths, List.find?_append, List.find?_append, Option.or_eq_none_iff, Option.or_eq_none_iff,
    find?_images_eq_none_iff, find?_audio_eq_none_iff]
  constructor
  · rintro ⟨⟨hImages, hAudio⟩, hOutput⟩
    exact ⟨hImages, hAudio, by simpa [Option.isSome_iff_ne_none] using hOutput⟩
  · rintro ⟨hImages, hAudio, hOutput⟩
    exact ⟨⟨hImages, hAudio⟩, by simpa [Option.isSome_iff_ne_none] using hOutput⟩

theorem find?_paths_eq_some_iff {use : PathUse} {path : FilePath} :
    r.paths.find? (fun entry => entry.2.text?.isNone) = some (use, path) ↔
      r.FirstTextless use path := by
  rw [paths, List.find?_append, List.find?_append, Option.or_eq_some_iff, Option.or_eq_some_iff,
    Option.or_eq_none_iff, find?_images_eq_some_iff, find?_images_eq_none_iff,
    find?_audio_eq_none_iff]
  constructor
  · rintro ((⟨i, image, hEntry, hImage, hText, hBefore⟩ | ⟨hImages, hFind⟩) |
      ⟨⟨hImages, hAudio⟩, hFind⟩)
    · obtain ⟨rfl, rfl⟩ := Prod.mk.inj hEntry
      exact .image hImage hText hBefore
    · cases hAudio : r.audio with
      | none => simp [hAudio] at hFind
      | some soundtrack =>
          obtain ⟨hText, rfl, rfl⟩ : soundtrack.text? = none ∧ PathUse.audio = use ∧
            soundtrack = path := by simpa [hAudio] using hFind
          exact .audio hAudio hText hImages
    · obtain ⟨hText, rfl, rfl⟩ : r.output.text? = none ∧ PathUse.output = use ∧
        r.output = path := by simpa using hFind
      exact .output hText hImages hAudio
  · rintro (⟨hImage, hText, hBefore⟩ | ⟨hAudio, hText, hImages⟩ | ⟨hText, hImages, hAudio⟩)
    · exact .inl (.inl ⟨_, _, rfl, hImage, hText, hBefore⟩)
    · exact .inl (.inr ⟨hImages, by simp [hAudio, hText]⟩)
    · exact .inr ⟨⟨hImages, hAudio⟩, by simp [hText]⟩

theorem checkPaths_eq_ok_iff :
    r.checkPaths = .ok () ↔ r.images ≠ [] ∧ r.output.isEmpty = false ∧ r.Textual := by
  rw [← find?_paths_eq_none_iff]
  by_cases hImages : r.images = []
  · simp [checkPaths, hImages]
  · cases hOutput : r.output.isEmpty with
    | true => simp [checkPaths, hImages, hOutput]
    | false =>
        cases hFind : r.paths.find? (fun entry => entry.2.text?.isNone) with
        | none => simp [checkPaths, hImages, hOutput, hFind]
        | some entry => simp [checkPaths, hImages, hOutput, hFind]

theorem checkPaths_eq_error_iff {e : Error T} :
    r.checkPaths = .error e ↔
      r.images = [] ∧ e = .noImages ∨
      r.images ≠ [] ∧ r.output.isEmpty = true ∧ e = .emptyOutput ∨
      r.images ≠ [] ∧ r.output.isEmpty = false ∧
        ∃ use path, r.FirstTextless use path ∧ e = .notText use path := by
  simp only [← find?_paths_eq_some_iff]
  by_cases hImages : r.images = []
  · simp [checkPaths, hImages, eq_comm (a := e)]
  · cases hOutput : r.output.isEmpty with
    | true => simp [checkPaths, hImages, hOutput, eq_comm (a := e)]
    | false =>
        cases hFind : r.paths.find? (fun entry => entry.2.text?.isNone) with
        | none => simp [checkPaths, hImages, hOutput, hFind]
        | some entry => simp [checkPaths, hImages, hOutput, hFind, eq_comm (a := e), Prod.ext_iff]

end Request

/-! ## The decision -/

theorem Config.Checked.photo_pos [Seconds T] (c : Config.Checked T) :
    Seconds.isPositive c.config.photo = true := by
  have hPassed := c.passed
  unfold Config.check at hPassed
  split at hPassed
  · cases hPassed
  · rename_i hPhoto
    simpa using hPhoto

namespace Request

variable [Seconds T] {r : Request T} {c : Config.Checked T}

/-- After the check of the configuration only the length of a blend is left to go wrong. -/
theorem timeline_make_eq_error_iff {d : T} {fault : Timeline.Fault T} :
    Timeline.make c.config.photo d = .error fault ↔
      Seconds.isPositive d = false ∧ fault = .blend d := by
  cases hBlend : Seconds.isPositive d with
  | false => simp [Timeline.make, hBlend, eq_comm (a := fault)]
  | true => simp [Timeline.make, hBlend, c.photo_pos]

theorem result_assemble_eq_ok_iff {job : Job T} :
    (r.assemble c).result = .ok job ↔
      (r.images ≠ [] ∧ r.output.isEmpty = false ∧ r.Textual) ∧
        ∃ t : Timeline T, (t.photo = c.config.photo ∧ t.blend = r.settings.duration) ∧
          r.job c t = job := by
  rw [result_assemble, bind_eq_ok_iff, ← checkPaths_eq_ok_iff]
  simp only [bind_eq_ok_iff, mapError_eq_ok_iff, Timeline.make_eq_ok_iff, pure, Except.pure,
    Except.ok.injEq]
  constructor
  · rintro ⟨_, hPaths, hJob⟩
    exact ⟨hPaths, hJob⟩
  · rintro ⟨hPaths, hJob⟩
    exact ⟨(), hPaths, hJob⟩

/-- Two requests with one blend time are assembled under one timeline. -/
theorem exists_timeline {r' : Request T} {j j' : Job T} (h : (r.assemble c).result = .ok j)
    (h' : (r'.assemble c).result = .ok j') (hDuration : r'.settings.duration = r.settings.duration) :
    ∃ t : Timeline T, (t.photo = c.config.photo ∧ t.blend = r.settings.duration) ∧
      r.job c t = j ∧ r'.job c t = j' := by
  obtain ⟨-, t, hTimes, hJob⟩ := result_assemble_eq_ok_iff.mp h
  obtain ⟨-, t', hTimes', hJob'⟩ := result_assemble_eq_ok_iff.mp h'
  rw [hDuration] at hTimes'
  obtain rfl : t = t' := Except.ok.inj <|
    (Timeline.make_eq_ok_iff.mpr hTimes).symm.trans (Timeline.make_eq_ok_iff.mpr hTimes')
  exact ⟨t, hTimes, hJob, hJob'⟩

theorem result_assemble_eq_error_iff {e : Error T} :
    (r.assemble c).result = .error e ↔
      r.checkPaths = .error e ∨
      (r.images ≠ [] ∧ r.output.isEmpty = false ∧ r.Textual) ∧
        Seconds.isPositive r.settings.duration = false ∧
          e = .blendDuration r.settings.duration := by
  rw [result_assemble, bind_eq_error_iff, ← checkPaths_eq_ok_iff]
  simp only [bind_eq_error_iff, mapError_eq_error_iff, timeline_make_eq_error_iff, pure,
    Except.pure, reduceCtorEq, and_false, exists_false, or_false]
  refine or_congr_right ?_
  constructor
  · rintro ⟨_, hPaths, _, ⟨hBlend, rfl⟩, rfl⟩
    exact ⟨hPaths, hBlend, rfl⟩
  · rintro ⟨hPaths, hBlend, rfl⟩
    exact ⟨(), hPaths, _, ⟨hBlend, rfl⟩, rfl⟩

/-- Why a request is refused; the reasons exclude each other. -/
inductive Refusal (r : Request Float) : Error Float → Prop
  | noImages (hImages : r.images = []) : Refusal r .noImages
  | emptyOutput (hImages : r.images ≠ []) (hOutput : r.output.isEmpty = true) :
      Refusal r .emptyOutput
  | notText {use : PathUse} {path : FilePath} (hImages : r.images ≠ [])
      (hOutput : r.output.isEmpty = false) (hPath : r.FirstTextless use path) :
      Refusal r (.notText use path)
  | blendDuration (hImages : r.images ≠ []) (hOutput : r.output.isEmpty = false)
      (hPaths : r.Textual)
      (hDuration : r.settings.duration.isFinite = false ∨ r.settings.duration ≤ 0.0) :
      Refusal r (.blendDuration r.settings.duration)

theorem error_iff_refusal {r : Request Float} {c : Config.Checked Float} {e : Error Float} :
    (r.assemble c).result = .error e ↔ r.Refusal e := by
  rw [result_assemble_eq_error_iff, checkPaths_eq_error_iff, Seconds.isPositive_eq_false_iff]
  constructor
  · rintro ((⟨hImages, rfl⟩ | ⟨hImages, hOutput, rfl⟩ | ⟨hImages, hOutput, use, path, hPath, rfl⟩) |
      ⟨⟨hImages, hOutput, hPaths⟩, hDuration, rfl⟩)
    · exact .noImages hImages
    · exact .emptyOutput hImages hOutput
    · exact .notText hImages hOutput hPath
    · exact .blendDuration hImages hOutput hPaths hDuration
  · rintro (hImages | ⟨hImages, hOutput⟩ | ⟨hImages, hOutput, hPath⟩ |
      ⟨hImages, hOutput, hPaths, hDuration⟩)
    · exact .inl (.inl ⟨hImages, rfl⟩)
    · exact .inl (.inr (.inl ⟨hImages, hOutput, rfl⟩))
    · exact .inl (.inr (.inr ⟨hImages, hOutput, _, _, hPath, rfl⟩))
    · exact .inr ⟨⟨hImages, hOutput, hPaths⟩, hDuration, rfl⟩

theorem ok_iff_accepted {r : Request Float} {c : Config.Checked Float} :
    (∃ job, (r.assemble c).result = .ok job) ↔
      r.images ≠ [] ∧ r.output.isEmpty = false ∧ r.Textual ∧
        r.settings.duration.isFinite = true ∧ 0.0 < r.settings.duration := by
  simp only [result_assemble_eq_ok_iff, ← Seconds.isPositive_iff]
  constructor
  · rintro ⟨-, ⟨hImages, hOutput, hPaths⟩, t, ⟨-, hBlend⟩, -⟩
    exact ⟨hImages, hOutput, hPaths, hBlend ▸ t.blend_pos⟩
  · rintro ⟨hImages, hOutput, hPaths, hDuration⟩
    exact ⟨_, ⟨hImages, hOutput, hPaths⟩,
      ⟨c.config.photo, r.settings.duration, c.photo_pos, hDuration⟩, ⟨rfl, rfl⟩, rfl⟩

/-- Assembly refuses a request for the listed reasons and accepts it otherwise. The time of a
picture is never to blame, and neither is the graph: for any number of pictures, canvas and style
there is a plan, no push of it is refused, and the graph ends in the output link. -/
theorem assemble_decides (r : Request Float) (c : Config.Checked Float) :
    (∀ e, (r.assemble c).result = .error e ↔ r.Refusal e) ∧
    ((∃ job, (r.assemble c).result = .ok job) ↔
      r.images ≠ [] ∧ r.output.isEmpty = false ∧ r.Textual ∧
        r.settings.duration.isFinite = true ∧ 0.0 < r.settings.duration) ∧
    (∀ violation, (r.assemble c).result ≠ .error (.graph violation)) ∧
    (∀ d value, Timeline.make c.config.photo d ≠ .error (.photo value)) ∧
    ∀ (canvas : Canvas) (t : Timeline Float) (pixels : String) (kind : TransitionKind)
      (offsets : FadeOffsets) (n k : Nat), 0 < n → n ≤ k →
      let s := Strategy.ofKind kind offsets
      let chain := slideshowChain t pixels n
      ∃ normalized, (Graph.empty k).pushAll (normalNodes canvas n) = .ok normalized ∧
        (s.plan? chain).isSome ∧ chain.fadedLinks ≠ [] ∧
        (s.build chain normalized).result = .ok () ∧
        (s.build chain normalized).graph.validate outputLink = .ok () := by
  refine ⟨fun e => error_iff_refusal, ok_iff_accepted, fun violation hError => ?_,
    fun d value hError => ?_, fun canvas t pixels kind offsets n k hn hk => ?_⟩
  · cases error_iff_refusal.mp hError
  · cases (timeline_make_eq_error_iff.mp hError).2
  · intro s chain
    have hSources : chain.sources ≠ [] := slideshowChain_sources_ne_nil t pixels hn
    obtain ⟨hNormal, hGraph, hResult, hSink⟩ :=
      slideshow_builds canvas t pixels kind offsets hn hk
    obtain ⟨steps, hPlan, -⟩ := s.plan?_nodes chain hSources
    refine ⟨_, hNormal, by rw [hPlan]; rfl, ?_, hResult, hGraph ▸ hSink⟩
    simpa [Chain.fadedLinks] using hSources

end Request

end Diaporama
