import Mathlib
import Diaporama.Fingerprint
import Diaporama.Proofs.Shell.Splitting
import Diaporama.Proofs.Slideshow.Arguments

/-!
# Equal jobs

Jobs are equal when their fields are: times as numbers, so that both zeros are one, graphs by their
nodes, and paths by their components. Equal times and equal graphs have one text, but a path can be
spelled in many ways, and it is handed to the encoder as it is spelled.
-/

namespace Diaporama

section

variable {α : Type} [BEq α] {xs ys : List α}

theorem forall₂_of_beq (h : (xs == ys) = true) :
    List.Forall₂ (fun x y => (x == y) = true) xs ys := by
  induction xs generalizing ys with
  | nil =>
      cases ys with
      | nil => exact .nil
      | cons y ys => cases h
  | cons x xs ih =>
      cases ys with
      | nil => cases h
      | cons y ys =>
          obtain ⟨hHead, hTail⟩ := Bool.and_eq_true_iff.mp h
          exact .cons hHead (ih hTail)

theorem map_eq_of_beq {f : α → String} (hText : ∀ x y, (x == y) = true → f x = f y)
    (h : (xs == ys) = true) : xs.map f = ys.map f := by
  rw [← List.forall₂_eq_eq_eq, List.forall₂_map_left_iff, List.forall₂_map_right_iff]
  exact (forall₂_of_beq h).imp hText

end

/-! ## Times and graphs -/

theorem Seconds.text_eq_of_beq (x y : Float) (h : (x == y) = true) : text x = text y := by
  have hZero : text 0 = text (-0) := by decide
  obtain ⟨-, -, rfl | ⟨rfl, rfl⟩ | ⟨rfl, rfl⟩⟩ := Float.beq_iff_ne_nan_and_eq.mp h
  · rfl
  · exact hZero
  · exact hZero.symm

theorem Filter.text_eq_of_beq (f g : Filter Float) (h : (f == g) = true) : f.text = g.text := by
  cases f with
  | cover canvas =>
      cases g with
      | cover canvas' =>
          have hCanvas : (canvas == canvas') = true := h
          rw [eq_of_beq hCanvas]
      | _ => cases h
  | crop canvas =>
      cases g with
      | crop canvas' =>
          have hCanvas : (canvas == canvas') = true := h
          rw [eq_of_beq hCanvas]
      | _ => cases h
  | squarePixels =>
      cases g with
      | squarePixels => rfl
      | _ => cases h
  | format pixels =>
      cases g with
      | format pixels' =>
          have hPixels : (pixels == pixels') = true := h
          rw [eq_of_beq hPixels]
      | _ => cases h
  | fade direction start duration =>
      cases g with
      | fade direction' start' duration' =>
          obtain ⟨rfl, hStart, hDuration⟩ : direction = direction' ∧ (start == start') = true ∧
              (duration == duration') = true := by
            simpa [BEq.beq, instBEqFilter.beq] using h
          change "fade=t=" ++ direction.name ++ ":st=" ++ Seconds.text start ++ ":d=" ++
            Seconds.text duration = "fade=t=" ++ direction.name ++ ":st=" ++
            Seconds.text start' ++ ":d=" ++ Seconds.text duration'
          rw [Seconds.text_eq_of_beq _ _ hStart, Seconds.text_eq_of_beq _ _ hDuration]
      | _ => cases h
  | blend style duration offset =>
      cases g with
      | blend style' duration' offset' =>
          obtain ⟨rfl, hDuration, hOffset⟩ : style = style' ∧ (duration == duration') = true ∧
              (offset == offset') = true := by
            simpa [BEq.beq, instBEqFilter.beq] using h
          change "xfade=transition=" ++ style.name ++ ":duration=" ++ Seconds.text duration ++
            ":offset=" ++ Seconds.text offset = "xfade=transition=" ++ style.name ++
            ":duration=" ++ Seconds.text duration' ++ ":offset=" ++ Seconds.text offset'
          rw [Seconds.text_eq_of_beq _ _ hDuration, Seconds.text_eq_of_beq _ _ hOffset]
      | _ => cases h

theorem Node.beq_iff {T : Type} [BEq T] {n m : Node T} :
    (n == m) = true ↔ n.label = m.label ∧ n.role = m.role ∧ (n.filters == m.filters) = true ∧
      n.inputs = m.inputs ∧ n.outputs = m.outputs := by
  cases n
  cases m
  change (_ && _) = true ↔ _
  simp only [Bool.and_eq_true, beq_iff_eq]

theorem Node.statement_eq_of_beq (n m : Node Float) (h : (n == m) = true) :
    n.statement = m.statement := by
  obtain ⟨-, -, hFilters, hInputs, hOutputs⟩ := beq_iff.mp h
  rw [statement, statement, map_eq_of_beq Filter.text_eq_of_beq hFilters, hInputs, hOutputs]

theorem Graph.expression_eq_of_beq {g g' : Graph Float} (h : (g == g') = true) :
    g.expression = g'.expression := by
  obtain ⟨-, hNodes⟩ := Bool.and_eq_true_iff.mp h
  have hList : (g.nodes.toList == g'.nodes.toList) = true := by rw [Array.beq_toList, hNodes]
  rw [expression, expression, map_eq_of_beq Node.statement_eq_of_beq hList]

/-! ## Paths -/

theorem FilePath.beq_self (p : FilePath) : (p == p) = true :=
  beq_iff.mpr ⟨rfl, rfl⟩

/-- The texts are the same, or they spell one of the pairs of equal paths. -/
def FilePath.Agree (paths : List (FilePath × FilePath)) (s t : String) : Prop :=
  s = t ∨ ∃ pair ∈ paths, (pair.1 == pair.2) = true ∧ pair.1.display = s ∧ pair.2.display = t

theorem FilePath.Agree.mono {paths paths' : List (FilePath × FilePath)} {s t : String}
    (hSub : paths ⊆ paths') (h : Agree paths s t) : Agree paths' s t := by
  rcases h with h | ⟨pair, hPair, h⟩
  · exact .inl h
  · exact .inr ⟨pair, hSub hPair, h⟩

namespace Input

variable {i j : Input Float} {is js : List (Input Float)}

theorem beq_cases (h : (i == j) = true) :
    (∃ p q s t, i = still p s ∧ j = still q t ∧ (p == q) = true ∧ (s == t) = true) ∨
      ∃ p q, i = audio p ∧ j = audio q ∧ (p == q) = true := by
  cases i with
  | still p s =>
      cases j with
      | still q t =>
          obtain ⟨hPath, hHold⟩ := Bool.and_eq_true_iff.mp h
          exact .inl ⟨p, q, s, t, rfl, rfl, hPath, hHold⟩
      | audio q => cases h
  | audio p =>
      cases j with
      | still q t => cases h
      | audio q => exact .inr ⟨p, q, rfl, rfl, h⟩

theorem args_agree (h : (i == j) = true) :
    List.Forall₂ (FilePath.Agree [(i.path, j.path)]) i.args j.args := by
  have hSame (s : String) : FilePath.Agree [(i.path, j.path)] s s := .inl rfl
  have hSpelled (hPath : (i.path == j.path) = true) :
      FilePath.Agree [(i.path, j.path)] i.path.display j.path.display :=
    .inr ⟨_, List.mem_singleton_self _, hPath, rfl, rfl⟩
  rcases beq_cases h with ⟨p, q, s, t, rfl, rfl, hPath, hHold⟩ | ⟨p, q, rfl, rfl, hPath⟩
  · rw [args, args, Seconds.text_eq_of_beq s t hHold]
    exact .cons (hSame _) (.cons (hSame _) (.cons (hSame _) (.cons (hSame _) (.cons (hSame _)
      (.cons (hSpelled hPath) .nil)))))
  · exact .cons (hSame _) (.cons (hSpelled hPath) .nil)

theorem flatMap_args_agree (h : (is == js) = true) :
    List.Forall₂ (FilePath.Agree ((is.map path).zip (js.map path)))
      (is.flatMap args) (js.flatMap args) := by
  have hAll := forall₂_of_beq h
  induction hAll with
  | nil => exact .nil
  | cons hHead hTail ih =>
      obtain ⟨-, hTail⟩ := Bool.and_eq_true_iff.mp h
      simp only [List.flatMap_cons, List.map_cons, List.zip_cons_cons]
      exact List.rel_append
        ((args_agree hHead).imp fun s t => FilePath.Agree.mono (by simp))
        ((ih hTail).imp fun s t => FilePath.Agree.mono (List.subset_cons_self _ _))

theorem args_eq_iff_of_beq (h : (i == j) = true) :
    i.args = j.args ↔ i.path.display = j.path.display := by
  rcases beq_cases h with ⟨p, q, s, t, rfl, rfl, -, hHold⟩ | ⟨p, q, rfl, rfl, -⟩
  · simp [args, path, Seconds.text_eq_of_beq s t hHold]
  · simp [args, path]

theorem map_args_eq_iff_of_beq (h : List.Forall₂ (fun i j => (i == j) = true) is js) :
    is.map args = js.map args ↔
      is.map (fun i => i.path.display) = js.map (fun j => j.path.display) := by
  induction h with
  | nil => simp
  | cons hHead _ ih =>
      simp only [List.map_cons, List.cons.injEq]
      exact and_congr (args_eq_iff_of_beq hHead) ih

end Input

/-! ## Jobs -/

theorem Shell.line_inj {args args' : List String} : line args = line args' ↔ args = args' := by
  have hWords (args : List String) :
      (lexemes .bare (line args).toList).map (words none) = some (args.map String.toList) := by
    rw [toList_line, lexemes_line, Option.map_some, words_lineLexemes]
  refine ⟨fun h => ?_, fun h => by rw [h]⟩
  have hChars : some (args.map String.toList) = some (args'.map String.toList) := by
    rw [← hWords args, ← hWords args', h]
  exact List.map_injective_iff.mpr (fun _ _ => String.toList_inj.mp) (Option.some.inj hChars)

namespace Job

variable {j k : Job Float}

def paths {T : Type} (j : Job T) : List FilePath :=
  j.inputs.map Input.path ++ [j.output]

theorem beq_iff {T : Type} [BEq T] {j k : Job T} :
    (j == k) = true ↔ (j.inputs == k.inputs) = true ∧ (j.graph == k.graph) = true ∧
      j.videoLink = k.videoLink ∧ j.audio = k.audio ∧ j.encoder = k.encoder ∧
      (j.output == k.output) = true ∧ j.canvas = k.canvas ∧ (j.duration == k.duration) = true := by
  cases j
  cases k
  change (_ && _) = true ↔ _
  simp only [Bool.and_eq_true, beq_iff_eq]

/-- What stands between the inputs and the output is the same in equal jobs. -/
theorem args_eq_of_beq (h : (j == k) = true) :
    ∃ middle, j.args = j.inputs.flatMap Input.args ++ "-filter_complex" :: middle ++
        [j.output.display] ∧
      k.args = k.inputs.flatMap Input.args ++ "-filter_complex" :: middle ++
        [k.output.display] := by
  obtain ⟨-, hGraph, hLink, hAudio, hEncoder, -, -, -⟩ := beq_iff.mp h
  refine ⟨j.graph.expression :: "-map" :: ("[" ++ j.videoLink ++ "]") ::
    (audioMap j.audio ++ videoArgs j.encoder ++ audioArgs j.encoder j.audio), ?_, ?_⟩
  · simp [args]
  · rw [Graph.expression_eq_of_beq hGraph, hLink, hAudio, hEncoder]
    simp [args]

theorem args_agree_of_beq (h : (j == k) = true) :
    List.Forall₂ (FilePath.Agree (j.paths.zip k.paths)) j.args k.args := by
  obtain ⟨hInputs, -, -, -, -, hOutput, -, -⟩ := beq_iff.mp h
  obtain ⟨middle, hj, hk⟩ := args_eq_of_beq h
  have hLength : (j.inputs.map Input.path).length = (k.inputs.map Input.path).length := by
    rw [List.length_map, List.length_map, (forall₂_of_beq hInputs).length_eq]
  have hPaths : j.paths.zip k.paths =
      (j.inputs.map Input.path).zip (k.inputs.map Input.path) ++ [(j.output, k.output)] := by
    rw [paths, paths, List.zip_append hLength]
    rfl
  rw [hj, hk, hPaths]
  refine List.rel_append (List.rel_append ?_ ?_) ?_
  · exact (Input.flatMap_args_agree hInputs).imp
      fun s t => FilePath.Agree.mono (List.subset_append_left _ _)
  · exact List.forall₂_same.mpr fun s _ => .inl rfl
  · exact .cons (.inr ⟨_, List.mem_append_right _ (List.mem_singleton_self _), hOutput, rfl, rfl⟩)
      .nil

theorem args_eq_iff_of_beq (h : (j == k) = true) :
    j.args = k.args ↔ j.paths.map FilePath.display = k.paths.map FilePath.display := by
  obtain ⟨hInputs, -, -, -, -, -, -, -⟩ := beq_iff.mp h
  obtain ⟨middle, hj, hk⟩ := args_eq_of_beq h
  have hPaths : j.paths.map FilePath.display = k.paths.map FilePath.display ↔
      j.inputs.map Input.args = k.inputs.map Input.args ∧ j.output.display = k.output.display := by
    rw [Input.map_args_eq_iff_of_beq (forall₂_of_beq hInputs)]
    simp [paths, Function.comp_def]
  rw [hPaths, hj, hk]
  constructor
  · intro hArgs
    simp only [List.append_assoc, List.cons_append] at hArgs
    obtain ⟨hInputs, hRest⟩ := Input.flatMap_args_append_inj hArgs
    exact ⟨hInputs, by simpa using hRest⟩
  · rintro ⟨hInputs, hOutput⟩
    rw [List.flatMap_def, List.flatMap_def, hInputs, hOutput]

/-- The arguments of equal jobs agree place by place but for the spelling of paths. They are the
same, and so is the line for a shell, exactly where all paths are spelled alike, and then the
fingerprints are equal. -/
theorem args_of_beq (h : (j == k) = true) :
    List.Forall₂ (FilePath.Agree (j.paths.zip k.paths)) j.args k.args ∧
    (j.args = k.args ↔ j.paths.map FilePath.display = k.paths.map FilePath.display) ∧
    (j.commandLine = k.commandLine ↔
      j.paths.map FilePath.display = k.paths.map FilePath.display) ∧
    (j.paths.map FilePath.display = k.paths.map FilePath.display →
      j.fingerprint = k.fingerprint) := by
  have hArgs := args_eq_iff_of_beq h
  exact ⟨args_agree_of_beq h, hArgs, Shell.line_inj.trans hArgs,
    fun hPaths => congrArg Fingerprint.ofArgs (hArgs.mpr hPaths)⟩

/-- Both zeros are one time, and the jobs have one fingerprint. -/
theorem args_of_beq_zeros :
    let job (hold : Float) : Job Float := ⟨[.still (.ofString "a.png") hold], .empty 1, outputLink,
      none, .usual, .ofString "out.mp4", ⟨1920, 1080⟩, hold⟩
    (job 0 == job (-0)) = true ∧ (0 : Float) ≠ -0 ∧ (job 0).args = (job (-0)).args ∧
      (job 0).fingerprint = (job (-0)).fingerprint := by
  intro job
  have hZero : ((0 : Float) == -0) = true := by decide
  have hInputs : ((job 0).inputs == (job (-0)).inputs) = true := by
    change ((_ && _) && true) = true
    rw [FilePath.beq_self, hZero]
    rfl
  have hEqual : (job 0 == job (-0)) = true :=
    beq_iff.mpr ⟨hInputs, by decide, rfl, rfl, rfl, FilePath.beq_self _, rfl, hZero⟩
  obtain ⟨-, hArgs, -, hFingerprint⟩ := args_of_beq hEqual
  exact ⟨hEqual, by decide, hArgs.mpr rfl, hFingerprint rfl⟩

/-- A doubled separator in the output path leaves two assembled jobs equal, but not what the encoder
is told. -/
theorem args_ne_of_beq_separators :
    let t : Timeline Float := ⟨2.0, 0.8, by decide, by decide⟩
    let r (output : String) : Request Float :=
      ⟨[.ofPath (.ofString "a.png")], none, ⟨.dissolve, 0.8, .usual⟩, .ofString output⟩
    let j := (r "x/out.mp4").job .usual t
    let k := (r "x//out.mp4").job .usual t
    ((r "x/out.mp4").assemble .usual).result = .ok j ∧
      ((r "x//out.mp4").assemble .usual).result = .ok k ∧
      (j == k) = true ∧ j.args ≠ k.args ∧ j.commandLine ≠ k.commandLine := by
  intro t r j k
  have hJob (output : String) (hOutput : (FilePath.ofString output).isEmpty = false) :
      ((r output).assemble .usual).result = .ok ((r output).job .usual t) :=
    Request.result_assemble_eq_ok_iff.mpr
      ⟨⟨by simp [r], hOutput, ⟨by simp [r, Image.ofPath], by simp [r], by simp [r]⟩⟩, t,
        ⟨rfl, rfl⟩, rfl⟩
  have hInputs : (j.inputs == k.inputs) = true := by decide +kernel
  have hGraph : (j.graph == k.graph) = true := by decide +kernel
  have hOutput : (j.output == k.output) = true := by decide +kernel
  have hDuration : (j.duration == k.duration) = true := by decide +kernel
  have hEqual : (j == k) = true :=
    beq_iff.mpr ⟨hInputs, hGraph, rfl, rfl, rfl, hOutput, rfl, hDuration⟩
  have hPaths : ¬ j.paths.map FilePath.display = k.paths.map FilePath.display := by decide +kernel
  have hArgs : j.args ≠ k.args := mt (args_eq_iff_of_beq hEqual).mp hPaths
  exact ⟨hJob _ (by decide), hJob _ (by decide), hEqual, hArgs, mt Shell.line_inj.mp hArgs⟩

end Job

end Diaporama
