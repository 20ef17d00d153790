import Diaporama.Proofs.Graph.Splitting
import Diaporama.Proofs.Slideshow.Decision

/-!
# The shape of a slideshow's text

Of all texts in a request and its configuration, only the pixel format of the output reaches the
text of the graph. It is written as it is, and the check of a configuration asks no more of it than
not to be blank. So the text falls apart into the nodes exactly where the format holds no separator.
-/

namespace Diaporama

open Text (Avoids)

/-! ## Links -/

namespace Chain

variable {cs : List Char} (hcs : cs.any Layout.isNumeric = false)

include hcs

theorem avoids_numbered {stem : String} (h : Avoids cs stem) (i : Nat) :
    Avoids cs (numbered stem i) := by
  have hNumber : Avoids cs (toString i) := (Layout.numeric_nat i).avoids hcs
  intro c hc
  rw [numbered, String.toList_append, List.mem_append, not_or]
  exact ⟨h c hc, hNumber c hc⟩

theorem avoids_of_mem_names {families : List (String × Nat)}
    (h : ∀ family ∈ families, Avoids cs family.1) {name : String}
    (hName : name ∈ names families) : Avoids cs name := by
  obtain ⟨family, hFamily, hName⟩ := List.mem_flatMap.mp hName
  obtain ⟨i, -, rfl⟩ := List.mem_map.mp hName
  exact avoids_numbered hcs (h family hFamily) i

end Chain

theorem Strategy.avoids_stem_ofKind (kind : TransitionKind) (offsets : FadeOffsets) :
    Avoids linkSeparators (ofKind kind offsets).stem := by
  cases kind <;> simp only [ofKind, stem] <;> decide

namespace Graph.IsSlideshow

variable {g : Graph Float} {s : Strategy} {canvas : Canvas} {t : Timeline Float} {pixels : String}
  {n : Nat}

/-- The names of links are made of letters and digits, but for the stem of the blends. -/
theorem avoids_written (h : g.IsSlideshow s canvas t pixels n) {cs : List Char}
    (hcs : cs.any Layout.isNumeric = false) (hStem : Avoids cs s.stem) :
    ∀ link ∈ g.written, Avoids cs link := by
  have hFixed {name : String} (hName : Text.Within Layout.isNumeric name) : Avoids cs name :=
    hName.avoids hcs
  intro link hLink
  rw [written, h.nodes, outputs_slideshowNodes s canvas t pixels h.pos] at hLink
  rcases List.mem_append.mp hLink with hLink | hLink
  · refine Chain.avoids_of_mem_names hcs ?_ hLink
    simp only [List.forall_mem_cons, List.not_mem_nil, false_imp_iff, implies_true, and_true]
    exact ⟨hFixed (by decide), hFixed (by decide), hStem⟩
  · rw [List.mem_singleton.mp hLink]
    exact hFixed (by decide)

theorem avoids_of_mem_written (h : g.IsSlideshow s canvas t pixels n)
    (hStem : Avoids linkSeparators s.stem) : ∀ link ∈ g.written, Avoids linkSeparators link :=
  h.avoids_written (by decide) hStem

/-! ## Filters -/

/-- The output's pixel format is the only text in the filters that is not fixed. -/
theorem pixels?_of_mem_filters (h : g.IsSlideshow s canvas t pixels n) {m : Node Float}
    (hm : m ∈ g.nodes) {f : Filter Float} (hf : f ∈ m.filters) :
    ∀ format ∈ f.pixels?, format = blendPixels ∨ format = pixels := by
  have hNone (hFilter : f.pixels? = none) :
      ∀ format ∈ f.pixels?, format = blendPixels ∨ format = pixels := by
    simp [hFilter]
  rcases h.mem_nodes_iff.mp hm with ⟨i, -, rfl⟩ | ⟨-, i, -, rfl⟩ | hNode | rfl
  · simp only [normalNode, List.mem_cons, List.not_mem_nil, or_false] at hf
    rcases hf with rfl | rfl | rfl | rfl
    · exact hNone rfl
    · exact hNone rfl
    · exact hNone rfl
    · rintro _ ⟨⟩
      exact .inl rfl
  · rw [List.mem_singleton.mp hf]
    simp [Filter.pixels?]
  · obtain ⟨k, -, hFilters⟩ := Chain.filters_of_mem_blendNodes hNode
    rw [hFilters, List.mem_singleton] at hf
    exact hNone (hf ▸ rfl)
  · rcases List.mem_append.mp hf with hExit | hFormat
    · obtain ⟨offsets, -, -, rfl⟩ := s.exists_of_mem_exits t n hExit
      exact hNone rfl
    · rw [List.mem_singleton.mp hFormat]
      rintro _ ⟨⟩
      exact .inr rfl

theorem legible_iff (h : g.IsSlideshow s canvas t pixels n) :
    (∀ m ∈ g.nodes, ∀ f ∈ m.filters, f.Legible) ↔ Avoids separators pixels := by
  constructor
  · intro hLegible
    have hLast := hLegible _ h.outputNode_mem (.format pixels)
      (List.mem_append_right _ (List.mem_singleton_self _))
    exact hLast pixels rfl
  · intro hPixels m hm f hf format hFormat
    rcases h.pixels?_of_mem_filters hm hf format hFormat with rfl | rfl
    · decide
    · exact hPixels

end Graph.IsSlideshow

namespace Request

variable {r : Request Float} {c : Config.Checked Float} {j : Job Float}

/-- The text of an assembled job's graph falls apart into the input pads, filters and outputs of
its nodes exactly when the configured pixel format holds no separator. A configuration can pass its
check without that. -/
theorem assemble_expression_splits (h : (r.assemble c).result = .ok j) :
    Statement.split? j.graph.expression.toList = some (j.graph.nodes.toList.map Node.parts) ↔
      Avoids separators c.config.encoder.pixels := by
  obtain ⟨⟨hImages, -, -⟩, t, -, rfl⟩ := result_assemble_eq_ok_iff.mp h
  have hShow := r.isSlideshow_job c t hImages
  have hLinks := hShow.avoids_of_mem_written
    (Strategy.avoids_stem_ofKind r.settings.transition c.config.fadeOffsets)
  exact (hShow.sound.split?_expression_iff hLinks).trans hShow.legible_iff

/-- A pixel format with the fields and choices that the encoder takes. -/
theorem assemble_expression_splits_fields :
    let c : Config.Checked Float := ⟨{ Config.usual with
      encoder.pixels := "pix_fmts=yuv420p|nv12:color_spaces=bt709" }, by rfl⟩
    let t : Timeline Float := ⟨2.0, 0.8, by decide, by decide⟩
    let image := Image.ofPath (.ofString "a,b;[c].png")
    let r : Request Float := ⟨[image, image], none, ⟨.fade, 0.8, .usual⟩, .ofString "out.mp4"⟩
    (r.assemble c).result = .ok (r.job c t) ∧ Avoids separators c.config.encoder.pixels ∧
      Statement.split? (r.job c t).graph.expression.toList =
        some ((r.job c t).graph.nodes.toList.map Node.parts) := by
  intro c t image r
  have hJob : (r.assemble c).result = .ok (r.job c t) :=
    result_assemble_eq_ok_iff.mpr
      ⟨⟨by simp [r], by decide, ⟨by simp [r, image, Image.ofPath], by simp [r], by simp [r]⟩⟩, t,
        ⟨rfl, rfl⟩, rfl⟩
  have hPixels : Avoids separators c.config.encoder.pixels := by decide
  exact ⟨hJob, hPixels, (assemble_expression_splits hJob).mpr hPixels⟩

/-- A pixel format that ends its statement and begins another one, for which there is no node. -/
theorem split?_expression_semicolon :
    let c : Config.Checked Float :=
      ⟨{ Config.usual with encoder.pixels := "yuv420p[x];[x]hflip" }, by rfl⟩
    let t : Timeline Float := ⟨2.0, 0.8, by decide, by decide⟩
    let r : Request Float :=
      ⟨[.ofPath (.ofString "a.png")], none, ⟨.dissolve, 0.8, .usual⟩, .ofString "out.mp4"⟩
    let j := r.job c t
    (r.assemble c).result = .ok j ∧ j.graph.nodes.size = 2 ∧
      (Statement.split? j.graph.expression.toList).map List.length = some 3 ∧
      Statement.split? j.graph.expression.toList ≠ some (j.graph.nodes.toList.map Node.parts) := by
  intro c t r j
  have hJob : (r.assemble c).result = .ok j :=
    result_assemble_eq_ok_iff.mpr
      ⟨⟨by simp [r], by decide, ⟨by simp [r, Image.ofPath], by simp [r], by simp [r]⟩⟩, t,
        ⟨rfl, rfl⟩, rfl⟩
  have hNodes : j.graph.nodes.size = 2 := by decide +kernel
  have hText : (Statement.split? j.graph.expression.toList).map List.length = some 3 := by
    decide +kernel
  refine ⟨hJob, hNodes, hText, fun hSplit => ?_⟩
  rw [hSplit, Option.map_some, List.length_map, Array.length_toList, hNodes] at hText
  cases hText

end Request

end Diaporama
