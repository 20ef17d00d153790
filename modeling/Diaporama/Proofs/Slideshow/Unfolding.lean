import Mathlib.Data.List.Perm.Basic
import Diaporama.Proofs.Graph.Stream
import Diaporama.Proofs.Slideshow.Decision

/-!
# What a slideshow shows

Unfolded from the output link, the graph of a slideshow joins its pictures from left to right, each
brought to the canvas once and, in the fade style, faded in once. No node is passed twice and none
is left over.
-/

namespace Diaporama

variable {T : Type}

/-! ## The shape of a slideshow -/

namespace Stream

/-- Picture `i` on the canvas, behind an entrance if there are entrances. -/
inductive ShowsPicture (canvas : Canvas) (i : Nat) : Bool → Stream T → Prop
  | normalized {n : Node T} (hRole : n.role = .normalize)
      (hFilters : n.filters = [.cover canvas, .crop canvas, .squarePixels, .format blendPixels]) :
      ShowsPicture canvas i false (.filtered n (.input i .video))
  | entered {n : Node T} {s : Stream T} (hRole : n.role = .entrance)
      (hPicture : ShowsPicture canvas i false s) : ShowsPicture canvas i true (.filtered n s)

/-- The first pictures, joined from left to right. -/
inductive Joins (canvas : Canvas) (entrance : Bool) : Nat → Stream T → Prop
  | single {s : Stream T} (hPicture : s.ShowsPicture canvas 0 entrance) : Joins canvas entrance 1 s
  | next {k : Nat} {n : Node T} {s u : Stream T} (hRole : n.role = .transition)
      (hJoins : Joins canvas entrance k s) (hPicture : u.ShowsPicture canvas k entrance) :
      Joins canvas entrance (k + 1) (.joined n s u)

def roleCount (entrance : Bool) (k : Nat) : Role → Nat
  | .normalize => k
  | .entrance => if entrance then k else 0
  | .transition => k - 1
  | .output => 0

variable {canvas : Canvas} {entrance : Bool} {i k : Nat} {s : Stream T}

theorem ShowsPicture.leaves (h : s.ShowsPicture canvas i entrance) :
    s.leaves = [.source i .video] := by
  induction h with
  | normalized => rfl
  | entered _ _ ih => exact ih

theorem Joins.leaves (h : s.Joins canvas entrance k) :
    s.leaves = (List.range k).map (Pad.source · .video) := by
  induction h with
  | single hPicture => exact hPicture.leaves
  | next _ _ hPicture ih =>
      rw [Stream.leaves, ih, hPicture.leaves, List.range_succ, List.map_append]
      rfl

theorem ShowsPicture.countP_role (h : s.ShowsPicture canvas i entrance) (role : Role) :
    s.nodes.countP (·.role == role) = roleCount entrance 1 role := by
  cases h with
  | normalized hRole => cases role <;> simp [nodes, roleCount, hRole]
  | entered hRole hPicture =>
      cases hPicture with
      | normalized hRole' => cases role <;> simp [nodes, roleCount, hRole, hRole']

theorem Joins.pos (h : s.Joins canvas entrance k) : 0 < k := by
  cases h with
  | single => exact Nat.one_pos
  | next => exact Nat.succ_pos _

theorem Joins.countP_role (h : s.Joins canvas entrance k) (role : Role) :
    s.nodes.countP (·.role == role) = roleCount entrance k role := by
  induction h with
  | single hPicture => exact hPicture.countP_role role
  | next hRole hJoins hPicture ih =>
      have hPos := hJoins.pos
      rw [nodes, List.countP_append, List.countP_append, ih, hPicture.countP_role]
      cases role <;> cases entrance <;> simp [roleCount, hRole] <;> omega

end Stream

/-! ## Unfolding the chain -/

section

variable {g : Graph T} {canvas : Canvas} {entrance : Bool}

/-- Blends extend a stream of joined pictures by one picture after the other, each passing nothing
but its own nodes and one blend. -/
theorem Graph.Sound.exists_unfolds_blendNodes (h : g.Sound) {style : BlendStyle} {duration : T}
    {offset : Nat → T} {stem first : String} {rest : List String} {i : Nat} {s : Stream T}
    {picture : Nat → Stream T} (hPicture : ∀ j, (picture j).ShowsPicture canvas j entrance)
    (hNodes : ∀ n ∈ Chain.blendNodes style duration offset stem i first rest, n ∈ g.nodes)
    (hFirst : g.Unfolds (.link first) s) (hJoins : s.Joins canvas entrance (i + 1))
    (hRest : ∀ j link, rest[j]? = some link → g.Unfolds (.link link) (picture (i + 1 + j))) :
    ∃ u, g.Unfolds (.link (Chain.blendedLink stem i first rest)) u ∧
      u.Joins canvas entrance (i + 1 + rest.length) ∧
      u.nodes.Perm (s.nodes ++ (List.range' (i + 1) rest.length).flatMap (fun j => (picture j).nodes) ++
        Chain.blendNodes style duration offset stem i first rest) := by
  -- `s` is what was joined before; each blend puts one more vertex on top of it.
  induction rest generalizing i first s with
  | nil => exact ⟨s, hFirst, hJoins, by simp [Chain.blendNodes]⟩
  | cons second rest ih =>
      obtain ⟨hNode, hNodes⟩ := List.forall_mem_cons.mp hNodes
      have hSecond : g.Unfolds (.link second) (picture (i + 1)) := hRest 0 second rfl
      have hJoined : g.Unfolds (.link (Chain.numbered stem i))
          (.joined (Chain.blendNode style duration (offset i) i first second (Chain.numbered stem i))
            s (picture (i + 1))) :=
        .joined (h.producer?_eq_some_iff.mpr ⟨hNode, List.mem_singleton_self _⟩) rfl hFirst hSecond
      obtain ⟨u, hUnfolds, hShape, hPerm⟩ :=
        ih hNodes hJoined (.next rfl hJoins (hPicture (i + 1))) fun j link hLink => by
          rw [Nat.add_assoc (i + 1) 1 j, Nat.add_comm 1 j]
          exact hRest (j + 1) link hLink
      refine ⟨u, hUnfolds, ?_, hPerm.trans ?_⟩
      · rw [List.length_cons, ← Nat.add_assoc, Nat.add_right_comm]
        exact hShape
      · rw [Chain.blendNodes, List.length_cons, List.range'_succ, List.flatMap_cons, Stream.nodes]
        simp only [List.append_assoc, List.singleton_append]
        exact .append_left _ (.append_left _ List.perm_middle.symm)

end

/-! ## Unfolding the slideshow -/

variable [Seconds T]

def normalStream (canvas : Canvas) (i : Nat) : Stream T :=
  .filtered (normalNode canvas i) (.input i .video)

def pictureStream (s : Strategy) (canvas : Canvas) (t : Timeline T) (n i : Nat) : Stream T :=
  if s.fadesIn n then
    .filtered (Chain.entranceNode t.blend i (normalizedLink i)) (normalStream canvas i)
  else normalStream canvas i

section

variable (s : Strategy) (canvas : Canvas) (t : Timeline T) (pixels : String) {n : Nat}

theorem showsPicture_pictureStream (i : Nat) :
    (pictureStream s canvas t n i).ShowsPicture canvas i (s.fadesIn n) := by
  have hNormal : (normalStream canvas i : Stream T).ShowsPicture canvas i false :=
    .normalized rfl rfl
  unfold pictureStream
  cases s.fadesIn n with
  | false => exact hNormal
  | true => exact .entered rfl hNormal

theorem nodes_pictureStream_perm :
    ((List.range n).flatMap fun i => (pictureStream s canvas t n i).nodes).Perm
      (normalNodes canvas n ++ s.entrances (slideshowChain t pixels n)) := by
  rw [s.entrances_slideshowChain, normalNodes, List.map_eq_flatMap, List.map_eq_flatMap]
  cases hFades : s.fadesIn n with
  | false => simp [pictureStream, hFades, normalStream, Stream.nodes]
  | true =>
      simp only [pictureStream, hFades, normalStream, Stream.nodes, List.nil_append, if_true]
      exact (List.flatMap_append_perm _ _ _).symm

end

namespace Graph.IsSlideshow

variable {g : Graph T} {s : Strategy} {canvas : Canvas} {t : Timeline T} {pixels : String} {n : Nat}

theorem unfolds_entry (h : g.IsSlideshow s canvas t pixels n) {i : Nat} (hi : i < n) :
    g.Unfolds (.link (s.entry n i)) (pictureStream s canvas t n i) := by
  have hNormal : g.Unfolds (.link (normalizedLink i)) (normalStream canvas i) :=
    .filtered (h.producer?_eq_some (h.normalNode_mem hi) rfl) rfl (.input i .video)
  unfold Strategy.entry pictureStream
  cases hFades : s.fadesIn n with
  | false => exact hNormal
  | true =>
      exact .filtered (h.producer?_eq_some (h.entranceNode_mem hFades hi) rfl) rfl hNormal

/-- The output link unfolds to the output node over all pictures, and every node is passed once. -/
theorem exists_unfolds_outputLink (h : g.IsSlideshow s canvas t pixels n) :
    ∃ last u, last.role = .output ∧ g.Unfolds (.link outputLink) (.filtered last u) ∧
      u.Joins canvas (s.fadesIn n) n ∧ (u.nodes ++ [last]).Perm g.nodes.toList := by
  have hLength : 0 + 1 + (s.laterEntries n).length = n := by
    rw [s.length_laterEntries, Nat.zero_add, Nat.add_sub_cancel' h.pos]
  obtain ⟨u, hUnfolds, hJoins, hPerm⟩ := h.sound.exists_unfolds_blendNodes
    (showsPicture_pictureStream s canvas t) h.mem_of_mem_blendNodes (h.unfolds_entry h.pos)
    (.single (showsPicture_pictureStream s canvas t 0)) fun j link hLink => by
      obtain ⟨hj, rfl⟩ := s.getElem?_laterEntries hLink
      rw [Nat.zero_add]
      exact h.unfolds_entry hj
  refine ⟨_, u, rfl, .filtered (h.producer?_eq_some h.outputNode_mem rfl) rfl hUnfolds, ?_, ?_⟩
  · rwa [hLength] at hJoins
  · have hRange : List.range n = 0 :: List.range' (0 + 1) (s.laterEntries n).length := by
      rw [← List.range'_succ, ← List.range_eq_range', s.length_laterEntries,
        Nat.sub_add_cancel h.pos]
    have hPictures := nodes_pictureStream_perm s canvas t pixels (n := n)
    rw [hRange, List.flatMap_cons] at hPictures
    rw [h.nodes, slideshowNodes, s.chainNodes_slideshowChain t pixels h.pos]
    refine (hPerm.append_right _).trans ?_
    simp only [← List.append_assoc]
    exact (hPictures.append_right _).append_right _

end Graph.IsSlideshow

/-! ## Unfolding an assembled job -/

omit [Seconds T] in
theorem Graph.length_withRole {g : Graph T} {last : Node T} {u : Stream T}
    (hPerm : (u.nodes ++ [last]).Perm g.nodes.toList) (role : Role) :
    (g.withRole role).length =
      u.nodes.countP (·.role == role) + if last.role == role then 1 else 0 := by
  rw [withRole, ← List.countP_eq_length_filter, ← hPerm.countP_eq, List.countP_append,
    List.countP_singleton]

theorem Strategy.fadesIn_ofKind (kind : TransitionKind) (offsets : FadeOffsets) (n : Nat) :
    (ofKind kind offsets).fadesIn n = decide (kind = .fade ∧ 2 ≤ n) := by
  cases kind <;> simp [ofKind, fadesIn]

/-- A single picture is neither blended nor faded, so the style leaves no trace in the nodes. -/
theorem slideshowNodes_one (s : Strategy) (canvas : Canvas) (t : Timeline T) (pixels : String) :
    slideshowNodes s canvas t pixels 1 =
      normalNodes canvas 1 ++ [(slideshowChain t pixels 1).outputNode (normalizedLink 0) []] := by
  cases s <;> rfl

namespace Request

variable {r : Request T} {c : Config.Checked T} {job : Job T}

theorem graph_single_image (h : (r.assemble c).result = .ok job) (hOne : r.images.length = 1)
    (kind : TransitionKind) (offsets : FadeOffsets) (c' : Config.Checked T)
    (hConfig : c'.config = { c.config with fadeOffsets := offsets }) :
    ∃ job', ({ r with settings := { r.settings with transition := kind } }.assemble c').result =
      .ok job' ∧ job'.graph = job.graph := by
  obtain ⟨⟨hImages, hOutput, hPaths⟩, t, ⟨hPhoto, hBlend⟩, rfl⟩ := result_assemble_eq_ok_iff.mp h
  refine ⟨_, result_assemble_eq_ok_iff.mpr ⟨⟨hImages, hOutput, hPaths.images, hPaths.audio,
    hPaths.output⟩, t, ⟨by rw [hConfig, hPhoto], hBlend⟩, rfl⟩, ?_⟩
  simp only [Request.job, hConfig, hOne, slideshowGraph, slideshowNodes_one]

/-- An assembled job shows every picture of its request once and in order: the output link unfolds
to one output node over the joined pictures, on the way every node is passed once, and a single
picture is shown the same way in all styles. -/
theorem assemble_unfolds (h : (r.assemble c).result = .ok job) :
    let n := r.images.length
    let entrance := decide (r.settings.transition = .fade ∧ 2 ≤ n)
    (∀ (i : Nat) (image : Image), r.images[i]? = some image →
      ∃ hold, job.inputs[i]? = some (Input.still image.path hold)) ∧
    (∃ last s, last.role = .output ∧ s.Joins r.settings.aspect.canvas entrance n ∧
      (∀ u, job.graph.Unfolds (.link outputLink) u ↔ u = .filtered last s) ∧
      s.leaves = (List.range n).map (Pad.source · .video) ∧
      (Stream.filtered last s).nodes.Perm job.graph.nodes.toList) ∧
    ((job.graph.withRole .normalize).length = n ∧
      (job.graph.withRole .transition).length = n - 1 ∧
      (job.graph.withRole .entrance).length = (if entrance then n else 0) ∧
      (job.graph.withRole .output).length = 1) ∧
    (n = 1 → ∀ (kind : TransitionKind) (offsets : FadeOffsets) (c' : Config.Checked T),
      c'.config = { c.config with fadeOffsets := offsets } →
      ∃ job', ({ r with settings := { r.settings with transition := kind } }.assemble c').result =
        .ok job' ∧ job'.graph = job.graph) := by
  intro n entrance
  have hOne := graph_single_image h
  obtain ⟨⟨hImages, -, -⟩, t, -, rfl⟩ := result_assemble_eq_ok_iff.mp h
  obtain ⟨last, s, hRole, hUnfolds, hJoins, hPerm⟩ :=
    (isSlideshow_job r c t hImages).exists_unfolds_outputLink
  rw [Strategy.fadesIn_ofKind] at hJoins
  refine ⟨fun i image hImage => ⟨_, getElem?_inputs_job r c t hImage⟩,
    ⟨last, s, hRole, hJoins, fun u => ⟨fun hu => hu.unique hUnfolds, ?_⟩, hJoins.leaves, hPerm⟩,
    ⟨?_, ?_, ?_, ?_⟩, fun hn kind offsets c' hConfig => hOne hn kind offsets c' hConfig⟩
  · rintro rfl
    exact hUnfolds
  all_goals
    refine (Graph.length_withRole hPerm _).trans ?_
    rw [hJoins.countP_role, hRole]
    rfl

theorem assemble_unfolds_fade :
    let r : Request Float := ⟨[.ofPath (.ofString "a.png"), .ofPath (.ofString "b.png")], none,
      ⟨.fade, 0.8, .usual⟩, .ofString "out.mp4"⟩
    ∃ job, (r.assemble .usual).result = .ok job ∧ (job.graph.withRole .entrance).length = 2 := by
  intro r
  have hPaths : r.Textual := ⟨by simp [r, Image.ofPath], by simp [r], by simp [r]⟩
  have hFinite : (0.8 : Float).isFinite = true := by decide
  have hPositive : (0.0 : Float) < 0.8 := by decide
  obtain ⟨job, h⟩ := (ok_iff_accepted (r := r) (c := .usual)).mpr
    ⟨by simp [r], by decide, hPaths, hFinite, hPositive⟩
  exact ⟨job, h, (assemble_unfolds h).2.2.1.2.2.1⟩

end Request

end Diaporama
