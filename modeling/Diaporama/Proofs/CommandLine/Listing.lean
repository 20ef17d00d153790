import Diaporama.Proofs.CommandLine.Agreement
import Diaporama.Proofs.Slideshow.Shape
import Diaporama.Proofs.Text.Lines

/-!
# Arguments one to a line

A job can be printed with one argument to a line. Paths and encoder settings are printed as they
are, and neither may be refused for a newline, so the lines are the arguments exactly where none of
these texts holds one.
-/

namespace Diaporama

open Text (Avoids)

/-! ## The text of the graph -/

namespace Graph.IsSlideshow

variable {g : Graph Float} {s : Strategy} {canvas : Canvas} {t : Timeline Float} {pixels : String}
  {n : Nat}

/-- What is no part of a field and parts nothing comes into the text with the pixel format alone. -/
theorem not_mem_expression (h : g.IsSlideshow s canvas t pixels n) {c : Char}
    (hField : isFieldChar c = false) (hOther : c ∉ linkSeparators) (hStem : c ∉ s.stem.toList)
    (hPixels : c ∉ pixels.toList) : c ∉ g.expression.toList := by
  simp only [linkSeparators, separators, List.mem_cons, List.not_mem_nil, or_false,
    not_or] at hOther
  obtain ⟨hColon, hOpening, hClosing, hComma, hSemicolon⟩ := hOther
  have hNumeric : [c].any Layout.isNumeric = false := by
    simp only [isFieldChar, Bool.or_eq_false_iff] at hField
    simpa using hField.1.1
  have hLinks : ∀ link ∈ g.written, c ∉ link.toList := fun link hLink =>
    h.avoids_written hNumeric (by simpa [Avoids] using hStem) link hLink c (by simp)
  have hBlend : c ∉ blendPixels.toList :=
    Text.Within.not_mem (p := isFieldChar) (by decide) hField
  rw [toList_expression]
  intro hMem
  rcases Text.mem_intercalate hMem with hMem | ⟨chars, hChars, hMem⟩
  · exact hSemicolon (List.mem_singleton.mp hMem)
  · simp only [List.mem_map] at hChars
    obtain ⟨_, ⟨m, hm, rfl⟩, rfl⟩ := hChars
    refine Statement.not_mem_chars (by simp [hOpening, hClosing, hComma]) ?_ ?_ hMem
    · intro name hName
      rcases List.mem_append.mp hName with hName | hName
      · obtain ⟨pad, hPad, rfl⟩ := List.mem_map.mp hName
        cases pad with
        | source input stream => exact Pad.not_mem_name_source input stream hField hColon
        | link link =>
          exact hLinks link (h.sound.wired.reads_subset hm (Node.mem_reads_iff.mpr hPad))
      · obtain ⟨link, hLink, rfl⟩ := List.mem_map.mp hName
        exact hLinks link (List.mem_flatMap.mpr ⟨m, hm, hLink⟩)
    · intro filter hFilter
      obtain ⟨f, hf, rfl⟩ := List.mem_map.mp hFilter
      refine Filter.not_mem_text hField hColon fun format hFormat => ?_
      rcases h.pixels?_of_mem_filters (Array.mem_toList_iff.mp hm) hf format hFormat with rfl | rfl
      · exact hBlend
      · exact hPixels

end Graph.IsSlideshow

/-! ## The texts in the arguments -/

namespace Job

/-- The texts in the arguments that are not made here: paths and the encoder settings in use. -/
def texts (j : Job Float) : List String :=
  j.inputs.map (·.path.display) ++ [j.encoder.videoCodec, j.encoder.preset, j.encoder.pixels] ++
    (if j.hasAudio then [j.encoder.audioCodec, j.encoder.audioBitrate] else []) ++
    [j.output.display]

end Job

theorem Input.avoids_args_iff {i : Input Float} :
    (∀ a ∈ i.args, Avoids ['\n'] a) ↔ Avoids ['\n'] i.path.display := by
  have hTime (x : Float) : Avoids ['\n'] (Seconds.text x) :=
    (Seconds.numeric_text x).avoids (by decide)
  have hWords : Avoids ['\n'] "-loop" ∧ Avoids ['\n'] "1" ∧ Avoids ['\n'] "-t" ∧
      Avoids ['\n'] "-i" := by
    decide
  cases i <;> simp [args, path, hTime, hWords]

namespace Job

theorem avoids_args_iff {j : Job Float} (hLink : Avoids ['\n'] j.videoLink)
    (hGraph : Avoids ['\n'] j.encoder.pixels → Avoids ['\n'] j.graph.expression) :
    (∀ a ∈ j.args, Avoids ['\n'] a) ↔ ∀ s ∈ j.texts, Avoids ['\n'] s := by
  have hNumber (n : Nat) : Avoids ['\n'] (toString n) := (Layout.numeric_nat n).avoids (by decide)
  have hCrf : Avoids ['\n'] (toString j.encoder.crf) := hNumber j.encoder.crf.toNat
  have hMap : Avoids ['\n'] ("[" ++ j.videoLink ++ "]") := by
    simpa [Avoids] using hLink
  have hWord : Avoids ['\n'] "-filter_complex" ∧ Avoids ['\n'] "-map" ∧ Avoids ['\n'] "-c:v" ∧
      Avoids ['\n'] "-preset" ∧ Avoids ['\n'] "-crf" ∧ Avoids ['\n'] "-pix_fmt" ∧
      Avoids ['\n'] "-c:a" ∧ Avoids ['\n'] "-b:a" ∧ Avoids ['\n'] "-shortest" := by
    decide
  have hAudio : ∀ a ∈ audioMap j.audio, Avoids ['\n'] a := by
    cases j.audio with
    | none => exact List.forall_mem_nil _
    | some input =>
      have hInput : Avoids ['\n'] (toString input ++ ":a") := by
        simpa [Avoids] using hNumber input
      exact List.forall_mem_cons.mpr ⟨by decide, List.forall_mem_singleton.mpr hInput⟩
  have hInputs : (∀ a ∈ j.inputs.flatMap Input.args, Avoids ['\n'] a) ↔
      ∀ s ∈ j.inputs.map (·.path.display), Avoids ['\n'] s := by
    rw [List.forall_mem_flatMap, List.forall_mem_map]
    exact forall₂_congr fun i _ => Input.avoids_args_iff
  have hVideo : (∀ a ∈ videoArgs j.encoder, Avoids ['\n'] a) ↔
      ∀ s ∈ [j.encoder.videoCodec, j.encoder.preset, j.encoder.pixels], Avoids ['\n'] s := by
    simp [videoArgs, hWord, hCrf]
  have hSound : (∀ a ∈ audioArgs j.encoder j.audio, Avoids ['\n'] a) ↔
      ∀ s ∈ if j.hasAudio then [j.encoder.audioCodec, j.encoder.audioBitrate] else [],
        Avoids ['\n'] s := by
    cases hCase : j.audio <;> simp [audioArgs, hasAudio, hCase, hWord]
  simp only [args, texts, List.forall_mem_append, hInputs, hVideo, hSound, List.forall_mem_cons,
    List.not_mem_nil, false_imp_iff, implies_true, and_true, hWord, hMap, true_and]
  constructor
  · rintro ⟨⟨⟨⟨⟨hPaths, -⟩, -⟩, hPicture⟩, hAudible⟩, hOutput⟩
    exact ⟨⟨⟨hPaths, hPicture⟩, hAudible⟩, hOutput⟩
  · rintro ⟨⟨⟨hPaths, hPicture⟩, hAudible⟩, hOutput⟩
    exact ⟨⟨⟨⟨⟨hPaths, hGraph hPicture.2.2⟩, hAudio⟩, hPicture⟩, hAudible⟩, hOutput⟩

end Job

theorem Request.avoids_args_iff {r : Request Float} {c : Config.Checked Float} {j : Job Float}
    (h : (r.assemble c).result = .ok j) :
    (∀ a ∈ j.args, Avoids ['\n'] a) ↔ ∀ s ∈ j.texts, Avoids ['\n'] s := by
  obtain ⟨⟨hImages, -, -⟩, t, -, rfl⟩ := result_assemble_eq_ok_iff.mp h
  have hStem : '\n' ∉ (Strategy.ofKind r.settings.transition c.config.fadeOffsets).stem.toList := by
    cases r.settings.transition <;> simp only [Strategy.ofKind, Strategy.stem] <;> decide
  have hLink : Avoids ['\n'] outputLink := by decide
  refine Job.avoids_args_iff hLink fun hPixels => ?_
  have hGraph := (r.isSlideshow_job c t hImages).not_mem_expression (c := '\n') (by decide)
    (by decide) hStem (hPixels '\n' (List.mem_singleton_self _))
  intro newline hNewline
  rwa [List.mem_singleton.mp hNewline]

/-! ## The printed lines -/

namespace CommandLine

section

variable {W : Type} [Host (StateM W)] {f : Flags} {w : W} {j : Job Float}

theorem result_compileJob {config : Config.Checked Float} {w' : W}
    (hConfig : (readConfig f : StateM W _).run w = (.ok config, w')) :
    ((compileJob f : StateM W _).run w).1.result =
      ((readRequest f : StateM W _).run w').1.result.bind fun r =>
        (r.assemble config).result.mapError Failure.ofError := by
  unfold compileJob
  simp only [StateT.run_bind, hConfig]
  exact Attempt.result_andThen _ _

/-- The job of a command line is assembled from some request under some configuration. -/
theorem exists_assemble_of_compileJob
    (h : ((compileJob f : StateM W _).run w).1.result = .ok j) :
    ∃ (r : Request Float) (c : Config.Checked Float), (r.assemble c).result = .ok j := by
  rcases hConfig : (readConfig f : StateM W _).run w with ⟨failure | config, w'⟩
  · unfold compileJob at h
    simp only [StateT.run_bind, hConfig] at h
    cases h
  · rw [result_compileJob hConfig] at h
    obtain ⟨r, -, hJob⟩ := bind_eq_ok_iff.mp h
    exact ⟨r, config, mapError_eq_ok_iff.mp hJob⟩

/-- Without a configuration file, flags are compiled to the job of their request. -/
theorem result_compileJob_flags {b : Brief} (format : Option OutputFormat) {t : Timeline Float}
    (hImages : b.images ≠ []) (hOutput : (FilePath.ofString b.output).isEmpty = false)
    (hPhoto : t.photo = Config.usual.photo) (hBlend : t.blend = b.settings.duration) :
    ((compileJob (b.flags none format) : StateM W _).run w).1.result =
      .ok (b.request.job .usual t) := by
  have hPaths : b.request.Textual :=
    ⟨by simp [Brief.request, Image.ofPath], by simp [Brief.request], by simp [Brief.request]⟩
  have hAssemble : (b.request.assemble .usual).result = .ok (b.request.job .usual t) :=
    Request.result_assemble_eq_ok_iff.mpr
      ⟨⟨by simpa [Brief.request] using hImages, hOutput, hPaths⟩, t, ⟨hPhoto, hBlend⟩, rfl⟩
  have hConfig : (readConfig (b.flags none format) : StateM W _).run w = (.ok .usual, w) := rfl
  rw [result_compileJob hConfig, result_readRequest_flags]
  exact mapError_eq_ok_iff.mpr hAssemble

theorem report_compile_args (hFormat : f.format = some .args)
    (hJob : ((compileJob f : StateM W _).run w).1.result = .ok j) :
    ∃ log, ((compile f : StateM W _).run w).1 = ⟨0, Text.unlines j.args, "", log⟩ := by
  unfold compile
  rcases hAttempt : (compileJob f : StateM W _).run w with ⟨⟨log, result⟩, w'⟩
  rw [hAttempt] at hJob
  simp only [StateT.run_bind, hAttempt]
  cases (show result = .ok j from hJob)
  rw [hFormat]
  exact ⟨log, rfl⟩

/-- A job that is printed with one argument to a line is read back from the lines exactly when no
path in it and no encoder setting in use holds a newline. Nothing that holds one is refused. -/
theorem run_lists_args {args : List ByteArray} (hArgs : parse? args = some (.run .compile f))
    (hFormat : f.format = some .args)
    (hJob : ((compileJob f : StateM W _).run w).1.result = .ok j) :
    let report := ((run args : StateM W _).run w).1
    report.status = 0 ∧
      (Text.lines report.output = j.args ↔ ∀ s ∈ j.texts, Avoids ['\n'] s) := by
  intro report
  obtain ⟨r, c, hAssemble⟩ := exists_assemble_of_compileJob hJob
  obtain ⟨log, hReport⟩ := report_compile_args hFormat hJob
  have hRun : report = ⟨0, Text.unlines j.args, "", log⟩ := by
    simp only [report, run, hArgs, hReport]
  rw [hRun]
  exact ⟨rfl, Text.lines_unlines_iff.trans (Request.avoids_args_iff hAssemble)⟩

end

/-- Blanks, quotes and a carriage return stand in a line like all else. -/
theorem run_lists_args_return :
    let shelf : Shelf := ⟨fun _ => .unopened .notFound⟩
    let b : Brief := ⟨["a \r\t.png", "'é'.png"], some "a\\\".mp3", none, none, none, "o.mp4"⟩
    let args := ["compile", "--image=a \r\t.png", "--image", "'é'.png", "--audio=a\\\".mp3",
      "--out=o.mp4", "--format=args"].map String.toUTF8
    let j := b.request.job .usual ⟨2.0, 0.8, by decide, by decide⟩
    parse? args = some (.run .compile (b.flags none (some .args))) ∧
      ((compileJob (b.flags none (some .args)) : StateM Shelf _).run shelf).1.result = .ok j ∧
      Text.lines ((run args : StateM Shelf _).run shelf).1.output = j.args := by
  intro shelf b args j
  have hArgs : parse? args = some (.run .compile (b.flags none (some .args))) := by
    with_unfolding_all rfl
  have hJob : ((compileJob (b.flags none (some .args)) : StateM Shelf _).run shelf).1.result =
      .ok j :=
    result_compileJob_flags _ (List.cons_ne_nil _ _) (by decide) rfl rfl
  exact ⟨hArgs, hJob, (run_lists_args hArgs rfl hJob).2.mpr (by decide)⟩

/-- A picture whose path holds a newline is spread over two lines. -/
theorem run_args_newline :
    let shelf : Shelf := ⟨fun _ => .unopened .notFound⟩
    let b : Brief := ⟨["a\nb.png"], none, none, none, none, "out.mp4"⟩
    let args := ["compile", "--image", "a\nb.png", "--out", "out.mp4", "--format", "args"].map
      String.toUTF8
    let j := b.request.job .usual ⟨2.0, 0.8, by decide, by decide⟩
    parse? args = some (.run .compile (b.flags none (some .args))) ∧
      ((compileJob (b.flags none (some .args)) : StateM Shelf _).run shelf).1.result = .ok j ∧
      Text.lines ((run args : StateM Shelf _).run shelf).1.output ≠ j.args := by
  intro shelf b args j
  have hArgs : parse? args = some (.run .compile (b.flags none (some .args))) := by
    with_unfolding_all rfl
  have hJob : ((compileJob (b.flags none (some .args)) : StateM Shelf _).run shelf).1.result =
      .ok j :=
    result_compileJob_flags _ (List.cons_ne_nil _ _) (by decide) rfl rfl
  obtain ⟨log, hReport⟩ := report_compile_args (f := b.flags none (some .args)) rfl hJob
  refine ⟨hArgs, hJob, fun hLines => ?_⟩
  simp only [run, hArgs, hReport] at hLines
  obtain ⟨r, c, hAssemble⟩ := exists_assemble_of_compileJob hJob
  have hTexts := (Request.avoids_args_iff hAssemble).mp (Text.lines_unlines_iff.mp hLines)
  exact absurd hTexts (by decide)

end CommandLine

end Diaporama
