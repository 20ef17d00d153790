import Diaporama.Proofs.Slideshow.Orders

/-!
# The numbers of inputs

Inputs are told by their numbers in three places: the encoder counts the files it is given, nodes
read streams of inputs, and the sound is mapped from one. All three count alike, so a number means
the same file wherever it stands.
-/

namespace Diaporama

open Argument

/-! ## Arguments -/

namespace Argument.Word

def input? : Word → Option String
  | input path => some path
  | setting _ | output _ => none

def value? (key : Key) : Word → Option String
  | setting (.value key' text) => if key' = key then some text else none
  | setting .shortest | input _ | output _ => none

end Argument.Word

namespace Input

theorem filterMap_value?_stated {key : Key} (hLoop : key ≠ .loop) (hDuration : key ≠ .duration)
    (is : List (Input Float)) :
    ((is.map stated).flatMap Orders.inputWords).filterMap (Word.value? key) = [] := by
  have hInput (i : Input Float) :
      (Orders.inputWords i.stated).filterMap (Word.value? key) = [] := by
    cases i <;> simp [stated, Orders.inputWords, Word.value?, hLoop.symm, hDuration.symm]
  rw [List.filterMap_flatMap, List.flatMap_map]
  simp [hInput]

end Input

namespace Job

variable (j : Job Float)

/-- Whatever the output path looks like, the arguments in front of it are read. -/
theorem words?_flatMap_args_words : words? (j.words.flatMap Word.args) = .ok j.words :=
  words?_flatMap_args j.unmistakable_words

theorem filterMap_input?_words :
    j.words.filterMap Word.input? = j.inputs.map (·.path.display) := by
  have hInput (i : Input Float) :
      (Orders.inputWords i.stated).filterMap Word.input? = [i.path.display] := by
    cases i <;> rfl
  have hSettings : (j.settings.map Word.setting).filterMap Word.input? = [] := by
    simp [List.filterMap_map, Function.comp_def, Word.input?]
  rw [words, List.filterMap_append, hSettings, List.append_nil, List.filterMap_flatMap,
    List.flatMap_map]
  simp only [hInput]
  exact List.flatMap_pure_eq_map _ _

/-- A key that no input is stated with has its texts from the settings of the output. -/
theorem filterMap_value?_words {key : Key} (hLoop : key ≠ .loop) (hDuration : key ≠ .duration) :
    j.words.filterMap (Word.value? key) = (j.settings.map .setting).filterMap (Word.value? key) := by
  rw [words, List.filterMap_append, Input.filterMap_value?_stated hLoop hDuration, List.nil_append]

theorem filterMap_map_words :
    j.words.filterMap (Word.value? .map) =
      ("[" ++ j.videoLink ++ "]") :: j.audio.toList.map fun input => toString input ++ ":a" := by
  rw [j.filterMap_value?_words (by decide) (by decide)]
  cases hAudio : j.audio <;>
    simp [settings, mapSettings, pictureSettings, soundSettings, hasAudio, hAudio, Word.value?]

end Job

/-! ## Pads and links -/

variable {T : Type}

def Pad.isSource : Pad → Bool
  | source _ _ => true
  | link _ => false

/-- Of the links that are not written by blends, the blends and the node behind them read just
those that are joined, in order. -/
theorem Chain.filter_reads_blendNodes (style : BlendStyle) (duration : T) (offset : Nat → T)
    (stem : String) {p : String → Bool} (hp : ∀ i, p (numbered stem i) = false) (i : Nat)
    (first : String) (rest : List String) :
    ((blendNodes style duration offset stem i first rest).flatMap Node.reads).filter p ++
        [blendedLink stem i first rest].filter p = (first :: rest).filter p := by
  induction rest generalizing i first with
  | nil => rfl
  | cons second rest ih =>
      -- The next blend reads what this one writes, and `p` drops that.
      have hOwn : (numbered stem i :: rest).filter p = rest.filter p :=
        List.filter_cons_of_neg (by simp [hp])
      rw [blendNodes, List.flatMap_cons, List.filter_append, List.append_assoc, blendedLink,
        ih (i + 1) (numbered stem i), hOwn, ← List.filter_append]
      rfl

variable [Seconds T]

namespace Strategy

variable (s : Strategy)

theorem isSource_of_mem_chainNodes {c : Chain T} {n : Node T} (h : n ∈ s.chainNodes c) :
    ∀ pad ∈ n.inputs, pad.isSource = false := by
  intro pad hPad
  cases pad with
  | link name => rfl
  | source input stream =>
      have hFormed : n.Formed 0 := s.formed_of_mem_chainNodes h
      exact absurd (hFormed.inRange input stream hPad) (Nat.not_lt_zero _)

/-- Links that a chain does not write itself are read by it as they stand among its sources. -/
theorem filter_reads_chainNodes {c : Chain T} (h : c.sources ≠ []) {p : String → Bool}
    (hStem : ∀ i, p (Chain.numbered s.stem i) = false)
    (hFaded : ∀ i, p (Chain.numbered "f" i) = false) :
    ((s.chainNodes c).flatMap Node.reads).filter p = c.sources.filter p := by
  obtain ⟨first, rest, hEntering, -⟩ := s.exists_entering_eq_cons c h
  have hJoined : ((s.entrances c).flatMap Node.reads).filter p ++ (s.entering c).filter p =
      c.sources.filter p := by
    unfold entrances entering
    split
    · rw [Chain.reads_entranceNodes, Chain.fadedLinks, List.filter_map]
      simp [Function.comp_def, hFaded]
    · rfl
  have hBlends := Chain.filter_reads_blendNodes s.style c.timeline.blend (s.start c.timeline) s.stem
    hStem 0 first rest
  rw [← hJoined, hEntering, ← hBlends]
  simp only [chainNodes, hEntering, List.flatMap_append, List.filter_append, List.append_assoc]
  rfl

end Strategy

namespace Graph.IsSlideshow

variable {g : Graph T} {s : Strategy} {canvas : Canvas} {t : Timeline T} {pixels : String} {n : Nat}

/-- The streams that are read are the pictures, each once and in order. -/
theorem sources (h : g.IsSlideshow s canvas t pixels n) :
    (g.nodes.toList.flatMap Node.inputs).filter Pad.isSource =
      (List.range n).map (Pad.source · .video) := by
  have hNormal : (normalNodes canvas n : List (Node T)).flatMap Node.inputs =
      (List.range n).map (Pad.source · .video) := by
    rw [normalNodes, List.flatMap_map]
    exact List.flatMap_pure_eq_map _ _
  have hChain : ((s.chainNodes (slideshowChain t pixels n)).flatMap Node.inputs).filter
      Pad.isSource = [] := by
    refine List.filter_eq_nil_iff.mpr fun pad hPad => ?_
    obtain ⟨m, hm, hPad⟩ := List.mem_flatMap.mp hPad
    simp [s.isSource_of_mem_chainNodes hm pad hPad]
  rw [h.nodes, slideshowNodes, List.flatMap_append, List.filter_append, hNormal, hChain,
    List.append_nil]
  exact List.filter_eq_self.mpr (by simp [Pad.isSource])

/-- The links of the normalized pictures are read in the order of the pictures. -/
theorem filter_read (h : g.IsSlideshow s canvas t pixels n)
    (hStem : s.stem ≠ "") (hHead : s.stem.toList.head? ≠ some 'v') :
    g.read.filter (· ∈ (List.range n).map normalizedLink) = (List.range n).map normalizedLink := by
  have hNormal (k : Nat) : (normalizedLink k).toList.head? = some 'v' :=
    Chain.head?_numbered (by decide) k
  -- The other links of a slideshow begin with another letter than `v`.
  have hOther {stem : String} (hStem : stem ≠ "") (hHead : stem.toList.head? ≠ some 'v') (i : Nat) :
      decide (Chain.numbered stem i ∈ (List.range n).map normalizedLink) = false := by
    refine decide_eq_false fun hMem => hHead ?_
    obtain ⟨k, -, hk⟩ := List.mem_map.mp hMem
    rw [← Chain.head?_numbered hStem i, ← hk]
    exact hNormal k
  rw [read, h.nodes, slideshowNodes, List.flatMap_append, reads_normalNodes, List.nil_append,
    s.filter_reads_chainNodes (slideshowChain_sources_ne_nil t pixels h.pos) (hOther hStem hHead)
      (hOther (by decide) (by decide))]
  exact List.filter_eq_self.mpr (by simp [slideshowChain])

end Graph.IsSlideshow

/-! ## Assembled jobs -/

theorem Strategy.stem_ofKind (kind : TransitionKind) (offsets : FadeOffsets) :
    (ofKind kind offsets).stem ≠ "" ∧ (ofKind kind offsets).stem.toList.head? ≠ some 'v' := by
  cases kind <;> simp [ofKind, stem]

namespace Request

section

variable (r : Request T) (c : Config.Checked T) (t : Timeline T)

theorem inputs_job :
    (r.job c t).inputs =
      r.images.map (fun image => .still image.path t.window) ++ r.audio.toList.map .audio := by
  have hStills : (Source.ofImages t r.images).map (fun s => Input.still s.path s.hold) =
      r.images.map fun image => .still image.path t.window := by
    conv_rhs => rw [← List.zipIdx_map_fst 0 r.images, List.map_map]
    rw [Source.ofImages, List.map_map]
    rfl
  rw [job, inputs, hStills]

theorem inputCount_job : (r.job c t).graph.inputCount = (r.job c t).inputs.length := by
  rw [inputs_job, List.length_append, List.length_map, List.length_map]
  exact Graph.inputCount_insertAll _ _

end

variable {r : Request Float} {c : Config.Checked Float} {j : Job Float}

theorem Textual.map_some_input?_words (h : r.Textual) (c : Config.Checked Float)
    (t : Timeline Float) :
    ((r.job c t).words.filterMap Word.input?).map some =
      (r.job c t).inputs.map (·.path.text?) := by
  rw [Job.filterMap_input?_words, List.map_map]
  exact List.map_congr_left fun i hi => (FilePath.text?_eq_some_display (h.inputs t i hi)).symm

/-- The numbers of inputs mean the same files all over an assembled job: number `k` is picture `k`
of the request, among the inputs, for the node that normalizes it and among the files that the
encoder reads, and the number behind the pictures is the soundtrack, which no node reads. -/
theorem assemble_numbers (h : (r.assemble c).result = .ok j) :
    let n := r.images.length
    let links := (List.range n).map normalizedLink
    (j.inputs = r.images.map (fun image =>
          .still image.path (Seconds.add c.config.photo r.settings.duration)) ++
        r.audio.toList.map .audio ∧
      j.graph.inputCount = j.inputs.length) ∧
    ((j.graph.nodes.toList.flatMap Node.inputs).filter Pad.isSource =
        (List.range n).map (Pad.source · .video) ∧
      (∀ k < n, ∃ m, j.graph.producer? (normalizedLink k) = some m ∧
        m.inputs = [.source k .video] ∧ m.inputs.map Pad.text = ["[" ++ toString k ++ ":v]"] ∧
        m.outputs = [normalizedLink k]) ∧
      j.graph.read.filter (· ∈ links) = links ∧
      ∀ m ∈ j.graph.nodes, ∀ stream, Pad.source n stream ∉ m.inputs) ∧
    (j.audio = r.audio.map (fun _ => n) ∧
      ∀ k ∈ j.audio, ∃ path ∈ r.audio, j.inputs[k]? = some (.audio path)) ∧
    ∃ front words, j.args = front ++ [j.output.display] ∧ words? front = .ok words ∧
      (words.filterMap Word.input?).map some = j.inputs.map (·.path.text?) ∧
      words.filterMap (Word.value? .map) =
        "[outv]" :: j.audio.toList.map fun k => toString k ++ ":a" := by
  intro n links
  obtain ⟨⟨hImages, -, hPaths⟩, t, ⟨hPhoto, hBlend⟩, rfl⟩ := result_assemble_eq_ok_iff.mp h
  have hShow := r.isSlideshow_job c t hImages
  have hStem := Strategy.stem_ofKind r.settings.transition c.config.fadeOffsets
  have hWindow : t.window = Seconds.add c.config.photo r.settings.duration := by
    rw [← hPhoto, ← hBlend]
    rfl
  refine ⟨⟨hWindow ▸ r.inputs_job c t, r.inputCount_job c t⟩,
    ⟨hShow.sources, fun k hk => ?_, hShow.filter_read hStem.1 hStem.2, fun m hm stream hPad => ?_⟩,
    ⟨rfl, fun k hk => ?_⟩, _, _, Job.args_eq_words _, Job.words?_flatMap_args_words _,
    hPaths.map_some_input?_words c t, Job.filterMap_map_words _⟩
  · have hText : (Pad.source k .video).text = "[" ++ toString k ++ ":v]" := by
      simp [Pad.text, StreamKind.letter, String.append_assoc]
    exact ⟨_, hShow.producer?_eq_some (hShow.normalNode_mem hk) rfl, rfl,
      congrArg ([·]) hText, rfl⟩
  · have hSource : Pad.source n stream ∈ (List.range n).map (Pad.source · .video) := by
      rw [← hShow.sources]
      exact List.mem_filter.mpr
        ⟨List.mem_flatMap.mpr ⟨m, Array.mem_toList_iff.mpr hm, hPad⟩, rfl⟩
    simp at hSource
  · obtain ⟨path, hPath, rfl⟩ := Option.map_eq_some_iff.mp hk
    refine ⟨path, hPath, ?_⟩
    rw [r.inputs_job c t]
    simp [hPath]

/-- Files whose names look like an option, like a pad and like a map. -/
theorem assemble_numbers_misnamed :
    let t : Timeline Float := ⟨2.0, 0.8, by decide, by decide⟩
    let r : Request Float := ⟨[.ofPath (.ofString "-i"), .ofPath (.ofString "[2:v]")],
      some (.ofString "0:a"), ⟨.fade, 0.8, .usual⟩, .ofString "out.mp4"⟩
    let j := r.job .usual t
    (r.assemble .usual).result = .ok j ∧ j.graph.inputCount = 3 ∧
      (j.graph.nodes.toList.flatMap Node.inputs).filter Pad.isSource =
        [.source 0 .video, .source 1 .video] ∧
      j.inputs[2]? = some (.audio (.ofString "0:a")) ∧
      ∃ front words, j.args = front ++ ["out.mp4"] ∧ words? front = .ok words ∧
        words.filterMap Word.input? = ["-i", "[2:v]", "0:a"] ∧
        words.filterMap (Word.value? .map) = ["[outv]", "2:a"] := by
  intro t r j
  have hJob : (r.assemble .usual).result = .ok j :=
    result_assemble_eq_ok_iff.mpr
      ⟨⟨by simp [r], by decide, ⟨by simp [r, Image.ofPath], by simp [r], by simp [r]⟩⟩, t,
        ⟨rfl, rfl⟩, rfl⟩
  obtain ⟨⟨hInputs, hCount⟩, ⟨hSources, -⟩, -, front, words, hArgs, hWords, hFiles, hMaps⟩ :=
    assemble_numbers hJob
  have hOutput : j.output.display = "out.mp4" :=
    FilePath.display_eq_of_text? (FilePath.text?_ofString _)
  have hTexts : (words.filterMap Word.input?).map some = ["-i", "[2:v]", "0:a"].map some := by
    rw [hFiles, hInputs]
    simp [r, Image.ofPath, Input.path]
  exact ⟨hJob, by rw [hCount, hInputs]; rfl, hSources, by rw [hInputs]; rfl, front, words,
    hOutput ▸ hArgs, hWords, (List.map_inj_right fun _ _ => Option.some.inj).mp hTexts,
    hMaps.trans (by decide)⟩

end Request

end Diaporama
