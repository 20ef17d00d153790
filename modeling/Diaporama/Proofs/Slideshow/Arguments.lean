import Diaporama.Proofs.Slideshow.Decision

/-!
# What the arguments tell of a job

The arguments are one flat list in which texts of the user stand between the options. What stands
before a text decides that it is no option, so whatever the texts are, the arguments tell the inputs
in order, the graph's text, the mapping, the encoder settings in use and the output.
-/

namespace Diaporama

namespace FilePath

theorem bytes_eq_of_text? {p : FilePath} {s : String} (h : p.text? = some s) :
    p.bytes = s.toUTF8 := by
  unfold text? String.fromUTF8? at h
  split at h
  · cases h
    rfl
  · cases h

theorem text?_eq_some_display {p : FilePath} (h : p.text?.isSome) : p.text? = some p.display := by
  obtain ⟨s, hs⟩ := Option.isSome_iff_exists.mp h
  rw [display_eq_of_text? hs, hs]

theorem display_inj {p q : FilePath} (hp : p.text?.isSome) (hq : q.text?.isSome) :
    p.display = q.display ↔ p = q := by
  obtain ⟨s, hs⟩ := Option.isSome_iff_exists.mp hp
  obtain ⟨t, ht⟩ := Option.isSome_iff_exists.mp hq
  refine ⟨fun h => ?_, fun h => by rw [h]⟩
  rw [display_eq_of_text? hs, display_eq_of_text? ht] at h
  have hBytes : p.bytes = q.bytes := by
    rw [bytes_eq_of_text? hs, bytes_eq_of_text? ht, h]
  cases p
  cases q
  exact congrArg FilePath.mk hBytes

end FilePath

/-! ## Inputs -/

namespace Input

variable {T U : Type}

def mapTime (f : T → U) : Input T → Input U
  | still path hold => still path (f hold)
  | audio path => audio path

@[simp] theorem isStill_mapTime (f : T → U) (i : Input T) : (i.mapTime f).isStill = i.isStill := by
  cases i <;> rfl

/-- The arguments of an input tell its kind, its path and the text of its time. -/
theorem args_eq_iff {i j : Input Float} (hi : i.path.text?.isSome) (hj : j.path.text?.isSome) :
    i.args = j.args ↔ i.mapTime Seconds.text = j.mapTime Seconds.text := by
  cases i with
  | still path hold =>
      cases j with
      | still path' hold' =>
          have hPath : path.display = path'.display ↔ path = path' := FilePath.display_inj hi hj
          simp [args, mapTime, hPath, and_comm]
      | audio path' => simp [args, mapTime]
  | audio path =>
      cases j with
      | still path' hold' => simp [args, mapTime]
      | audio path' =>
          have hPath : path.display = path'.display ↔ path = path' := FilePath.display_inj hi hj
          simp [args, mapTime, hPath]

theorem map_args_eq_iff {is js : List (Input Float)} (hi : ∀ i ∈ is, i.path.text?.isSome)
    (hj : ∀ j ∈ js, j.path.text?.isSome) :
    is.map args = js.map args ↔ is.map (mapTime Seconds.text) = js.map (mapTime Seconds.text) := by
  induction is generalizing js with
  | nil => cases js <;> simp
  | cons i is ih =>
      cases js with
      | nil => simp
      | cons j js =>
          obtain ⟨hi, his⟩ := List.forall_mem_cons.mp hi
          obtain ⟨hj, hjs⟩ := List.forall_mem_cons.mp hj
          rw [List.map_cons, List.map_cons, List.map_cons, List.map_cons, List.cons.injEq,
            List.cons.injEq, args_eq_iff hi hj, ih his hjs]

theorem args_append_inj {i j : Input Float} {xs ys : List String}
    (h : i.args ++ xs = j.args ++ ys) : i.args = j.args ∧ xs = ys := by
  cases i with
  | still path hold =>
      cases j with
      | still path' hold' => simpa [args, and_assoc] using h
      | audio path' => simp [args] at h
  | audio path =>
      cases j with
      | still path' hold' => simp [args] at h
      | audio path' => simpa [args] using h

/-- The inputs end where the graph's option stands in place of an input's. -/
theorem flatMap_args_append_inj {is js : List (Input Float)} {xs ys : List String}
    (h : is.flatMap args ++ "-filter_complex" :: xs = js.flatMap args ++ "-filter_complex" :: ys) :
    is.map args = js.map args ∧ xs = ys := by
  have hOther : ∀ (i : Input Float) (before after : List String),
      "-filter_complex" :: before ≠ i.args ++ after := by
    intro i before after
    cases i <;> simp [args]
  induction is generalizing js with
  | nil =>
      cases js with
      | nil => simpa using h
      | cons j js =>
          rw [List.flatMap_cons, List.append_assoc] at h
          exact absurd h (hOther j _ _)
  | cons i is ih =>
      rw [List.flatMap_cons, List.append_assoc] at h
      cases js with
      | nil => exact absurd h.symm (hOther i _ _)
      | cons j js =>
          rw [List.flatMap_cons, List.append_assoc] at h
          obtain ⟨hHead, hTail⟩ := args_append_inj h
          obtain ⟨hInputs, hRest⟩ := ih hTail
          exact ⟨by rw [List.map_cons, List.map_cons, hHead, hInputs], hRest⟩

end Input

/-! ## Jobs -/

namespace Job

/-- The encoder is told the same of two jobs. Paths of inputs are compared by their bytes and times
by their texts, and the settings for sound count where there is sound. -/
structure Alike (j k : Job Float) : Prop where
  stillCount : j.stillCount = k.stillCount
  inputs : j.inputs.map (Input.mapTime Seconds.text) = k.inputs.map (Input.mapTime Seconds.text)
  audio : j.audio = k.audio
  expression : j.graph.expression = k.graph.expression
  videoLink : j.videoLink = k.videoLink
  videoCodec : j.encoder.videoCodec = k.encoder.videoCodec
  preset : j.encoder.preset = k.encoder.preset
  crf : j.encoder.crf = k.encoder.crf
  pixels : j.encoder.pixels = k.encoder.pixels
  audioCodec : j.hasAudio = true → j.encoder.audioCodec = k.encoder.audioCodec
  audioBitrate : j.hasAudio = true → j.encoder.audioBitrate = k.encoder.audioBitrate
  output : j.output.display = k.output.display

theorem args_eq (j : Job Float) :
    j.args = j.inputs.flatMap Input.args ++ "-filter_complex" :: j.graph.expression :: "-map" ::
      ("[" ++ j.videoLink ++ "]") :: (audioMap j.audio ++ videoArgs j.encoder ++
        audioArgs j.encoder j.audio ++ [j.output.display]) := by
  simp [args]

theorem stillCount_eq_of_inputs {j k : Job Float}
    (h : j.inputs.map (Input.mapTime Seconds.text) = k.inputs.map (Input.mapTime Seconds.text)) :
    j.stillCount = k.stillCount := by
  have hCount := congrArg (List.countP Input.isStill) h
  simp only [List.countP_map, Function.comp_def, Input.isStill_mapTime] at hCount
  exact hCount

theorem crf_text_inj {a b : UInt8} : toString a = toString b ↔ a = b := by
  refine ⟨fun h => ?_, fun h => by rw [h]⟩
  have hNat : a.toNat = b.toNat := Nat.repr_injective h
  exact UInt8.toNat_inj.mp hNat

/-- Behind the mapping of the picture another `-map` stands only where there is sound. -/
theorem settings_append_inj {a b : Option Nat} {e f : Encoder} {x y : String} :
    audioMap a ++ videoArgs e ++ audioArgs e a ++ [x] =
        audioMap b ++ videoArgs f ++ audioArgs f b ++ [y] ↔
      a = b ∧ (e.videoCodec = f.videoCodec ∧ e.preset = f.preset ∧ e.crf = f.crf ∧
        e.pixels = f.pixels) ∧
      (a.isSome = true → e.audioCodec = f.audioCodec ∧ e.audioBitrate = f.audioBitrate) ∧
      x = y := by
  cases a with
  | none =>
      cases b with
      | none => simp [audioMap, videoArgs, audioArgs, crf_text_inj, and_assoc]
      | some input' => simp [audioMap, videoArgs]
  | some input =>
      cases b with
      | none => simp [audioMap, videoArgs]
      | some input' => simp [audioMap, videoArgs, audioArgs, crf_text_inj, and_assoc]

theorem args_eq_iff {j k : Job Float} (hj : ∀ i ∈ j.inputs, i.path.text?.isSome)
    (hk : ∀ i ∈ k.inputs, i.path.text?.isSome) : j.args = k.args ↔ j.Alike k := by
  rw [args_eq, args_eq]
  constructor
  · intro h
    obtain ⟨hArgs, hRest⟩ := Input.flatMap_args_append_inj h
    have hInputs := (Input.map_args_eq_iff hj hk).mp hArgs
    obtain ⟨hExpression, hRest⟩ := List.cons.inj hRest
    obtain ⟨hLink, hRest⟩ := List.cons.inj (List.cons.inj hRest).2
    obtain ⟨hAudio, ⟨hVideo, hPreset, hCrf, hPixels⟩, hSound, hOutput⟩ :=
      settings_append_inj.mp hRest
    exact {
      stillCount := stillCount_eq_of_inputs hInputs
      inputs := hInputs
      audio := hAudio
      expression := hExpression
      videoLink := by simpa using hLink
      videoCodec := hVideo
      preset := hPreset
      crf := hCrf
      pixels := hPixels
      audioCodec := fun hHas => (hSound hHas).1
      audioBitrate := fun hHas => (hSound hHas).2
      output := hOutput }
  · intro h
    have hArgs : j.inputs.flatMap Input.args = k.inputs.flatMap Input.args := by
      rw [List.flatMap_def, List.flatMap_def, (Input.map_args_eq_iff hj hk).mpr h.inputs]
    have hRest := settings_append_inj.mpr ⟨h.audio, ⟨h.videoCodec, h.preset, h.crf, h.pixels⟩,
      fun hHas => ⟨h.audioCodec hHas, h.audioBitrate hHas⟩, h.output⟩
    rw [hArgs, h.expression, h.videoLink, hRest]

end Job

namespace Request

variable {r r' : Request Float} {c c' : Config.Checked Float} {j k : Job Float}

theorem Textual.inputs (h : r.Textual) (t : Timeline Float) :
    ∀ i ∈ (r.job c t).inputs, i.path.text?.isSome := by
  intro i hi
  rcases List.mem_append.mp hi with hi | hi
  · obtain ⟨source, hSource, rfl⟩ := List.mem_map.mp hi
    obtain ⟨⟨image, index⟩, hImage, rfl⟩ := List.mem_map.mp hSource
    exact h.images image (List.fst_mem_of_mem_zipIdx hImage)
  · obtain ⟨path, hPath, rfl⟩ := List.mem_map.mp hi
    exact h.audio path (Option.mem_toList.mp hPath)

/-- Two assembled jobs have the same arguments exactly when the encoder is told the same of them,
whatever texts stand in their paths and encoder settings. -/
theorem assemble_args_eq_iff (h : (r.assemble c).result = .ok j)
    (h' : (r'.assemble c').result = .ok k) : j.args = k.args ↔ j.Alike k := by
  obtain ⟨⟨-, -, hPaths⟩, t, -, rfl⟩ := result_assemble_eq_ok_iff.mp h
  obtain ⟨⟨-, -, hPaths'⟩, t', -, rfl⟩ := result_assemble_eq_ok_iff.mp h'
  exact Job.args_eq_iff (hPaths.inputs t) (hPaths'.inputs t')

/-- Without sound its codec is not told; a picture may be called like an option. -/
theorem assemble_args_eq_iff_silent :
    let c : Config.Checked Float := ⟨{ Config.usual with encoder.audioCodec := "flac" }, by rfl⟩
    let t : Timeline Float := ⟨2.0, 0.8, by decide, by decide⟩
    let r : Request Float := ⟨[.ofPath (.ofString "-filter_complex"), .ofPath (.ofString "-i")],
      none, ⟨.fade, 0.8, .usual⟩, .ofString "-shortest"⟩
    (r.assemble .usual).result = .ok (r.job .usual t) ∧
      (r.assemble c).result = .ok (r.job c t) ∧ (r.job .usual t).encoder ≠ (r.job c t).encoder ∧
      (r.job .usual t).args = (r.job c t).args ∧ (r.job .usual t).Alike (r.job c t) := by
  intro c t r
  have hPaths : r.Textual := ⟨by simp [r, Image.ofPath], by simp [r], by simp [r]⟩
  have hJob (c : Config.Checked Float) (hPhoto : t.photo = c.config.photo) :
      (r.assemble c).result = .ok (r.job c t) :=
    result_assemble_eq_ok_iff.mpr
      ⟨⟨by simp [r], by decide, hPaths⟩, t, ⟨hPhoto, rfl⟩, rfl⟩
  have hArgs : (r.job .usual t).args = (r.job c t).args := by rfl
  have hAlike := (assemble_args_eq_iff (hJob .usual rfl) (hJob c rfl)).mp hArgs
  exact ⟨hJob .usual rfl, hJob c rfl, by decide, hArgs, hAlike⟩

end Request

end Diaporama
