import Diaporama.Proofs.Slideshow.Log
import Mathlib.Algebra.Order.Field.Rat
import Mathlib.Data.Nat.Cast.Order.Field

/-!
# Warnings about pictures that are enlarged

A picture covers the canvas once it is scaled by the larger one of two quotients, canvas width by
picture width and canvas height by picture height. An assembly warns of the pictures for which this
scale is above one and of no others, in their order, behind the canvas and before the chain.
-/

namespace Diaporama

/-- The scale that makes a picture of this size cover the canvas. -/
def Canvas.coverScale (c : Canvas) (width height : UInt32) : ℚ :=
  max (c.width.toNat / width.toNat) (c.height.toNat / height.toNat)

namespace Image

def size? (i : Image) : Option (UInt32 × UInt32) :=
  i.width.bind fun width => i.height.map fun height => (width, height)

/-- Whether a size is enlarged to cover the canvas. Without width or without height no scale would
be enough. -/
def isEnlarged (c : Canvas) (size : UInt32 × UInt32) : Bool :=
  size.1 = 0 ∨ size.2 = 0 ∨ 1 < c.coverScale size.1 size.2

end Image

/-- A side is shorter than that of the canvas exactly if the quotient of the two is above one. -/
theorem one_lt_div_toNat_iff {side full : UInt32} (h : side ≠ 0) :
    1 < (full.toNat / side.toNat : ℚ) ↔ side < full := by
  have hPos : 0 < (side.toNat : ℚ) := by
    exact_mod_cast Nat.pos_of_ne_zero fun hZero => h (UInt32.toNat_inj.mp hZero)
  rw [one_lt_div hPos, Nat.cast_lt, UInt32.lt_iff_toNat_lt]

theorem Canvas.one_lt_coverScale_iff (c : Canvas) {width height : UInt32} (hWidth : width ≠ 0)
    (hHeight : height ≠ 0) :
    1 < c.coverScale width height ↔ width < c.width ∨ height < c.height := by
  rw [coverScale, lt_max_iff, one_lt_div_toNat_iff hWidth, one_lt_div_toNat_iff hHeight]

namespace AspectRatio

theorem canvas_width_pos (r : AspectRatio) : 0 < r.canvas.width := by
  cases r <;> decide

theorem canvas_height_pos (r : AspectRatio) : 0 < r.canvas.height := by
  cases r <;> decide

/-- A picture has a side shorter than the canvas if it is enlarged. -/
theorem isEnlarged_canvas_iff (r : AspectRatio) (width height : UInt32) :
    Image.isEnlarged r.canvas (width, height) = true ↔
      width < r.canvas.width ∨ height < r.canvas.height := by
  rw [Image.isEnlarged, decide_eq_true_iff]
  by_cases hWidth : width = 0
  · exact iff_of_true (.inl hWidth) (.inl (hWidth ▸ r.canvas_width_pos))
  by_cases hHeight : height = 0
  · exact iff_of_true (.inr (.inl hHeight)) (.inr (hHeight ▸ r.canvas_height_pos))
  simp only [hWidth, hHeight, false_or]
  exact r.canvas.one_lt_coverScale_iff hWidth hHeight

end AspectRatio

theorem Image.undersized?_canvas (i : Image) (r : AspectRatio) :
    i.undersized? r.canvas = i.size?.filter (isEnlarged r.canvas) := by
  obtain ⟨path, width, height⟩ := i
  cases width with
  | none => rfl
  | some width =>
    cases height with
    | none => rfl
    | some height =>
      by_cases hShort : width < r.canvas.width ∨ height < r.canvas.height
      · have hEnlarged := (r.isEnlarged_canvas_iff width height).mpr hShort
        simp [undersized?, size?, Option.filter, hEnlarged, hShort]
      · have hEnlarged := mt (r.isEnlarged_canvas_iff width height).mp hShort
        simp [undersized?, size?, Option.filter, hEnlarged, hShort]

namespace Event

variable {T : Type}

def isUpscaled (e : Event T) : Bool :=
  e.level == .warn && e.text == "image is smaller than the canvas and will be upscaled"

theorem isUpscaled_upscaled (index : Nat) (path : FilePath) (width height : UInt32) :
    (upscaled index path width height : Event T).isUpscaled = true := by
  simp [isUpscaled, level, text]

end Event

variable {T : Type} [Seconds T]

omit [Seconds T] in
theorem Strategy.isUpscaled_of_mem_notes {s : Strategy} {n : Nat} {e : Event T}
    (h : e ∈ s.notes n) : e.isUpscaled = false := by
  rw [eq_constantOffsets_of_mem_notes h]
  simp [Event.isUpscaled, Event.text]

namespace Request

/-- The warnings about the pictures that take a scale above one to cover the canvas. -/
def upscaleWarnings (r : Request T) : List (Event T) :=
  r.images.zipIdx.filterMap fun (image, index) =>
    (image.size?.filter (Image.isEnlarged r.settings.aspect.canvas)).map fun (width, height) =>
      .upscaled index image.path width height

omit [Seconds T] in
theorem upscaleEvents_canvas (r : Request T) :
    r.upscaleEvents r.settings.aspect.canvas = r.upscaleWarnings := by
  simp only [upscaleEvents, upscaleWarnings, Image.undersized?_canvas]

omit [Seconds T] in
theorem isUpscaled_of_mem_upscaleWarnings {r : Request T} {e : Event T}
    (h : e ∈ r.upscaleWarnings) : e.isUpscaled = true := by
  obtain ⟨⟨image, index⟩, -, hEvent⟩ := List.mem_filterMap.mp h
  obtain ⟨⟨width, height⟩, -, rfl⟩ := Option.map_eq_some_iff.mp hEvent
  exact Event.isUpscaled_upscaled index image.path width height

/-- An assembly that gets past its checks warns of the pictures whose scale is above one, each with
its place, path and size, and of no others. The warnings stand together, in the order of the
pictures, behind the canvas and before all that the chain has to say. -/
theorem log_assemble_upscaled {r : Request T} {c : Config.Checked T} {t : Timeline T}
    (hPaths : r.checkPaths = .ok ())
    (hTimes : Timeline.make c.config.photo r.settings.duration = .ok t) :
    let canvas := r.settings.aspect.canvas
    let strategy := Strategy.ofKind r.settings.transition c.config.fadeOffsets
    let chain := slideshowChain t c.config.encoder.pixels r.images.length
    ∃ normalized nodes offsets,
      (Graph.empty (r.images.length + r.audio.toList.length)).pushAll
        (normalNodes canvas r.images.length) = .ok normalized ∧
      (r.assemble c).log =
        [.assembling r.images.length r.settings.transition, .resolved canvas t.window] ++
          r.upscaleWarnings ++ (strategy.build chain normalized).log ++
          [.assembled nodes offsets] ∧
      (r.assemble c).log.filter Event.isUpscaled = r.upscaleWarnings := by
  intro canvas strategy chain
  have hImages : 0 < r.images.length := List.length_pos_iff.mpr (images_ne_nil_of_checkPaths hPaths)
  obtain ⟨hNormal, -, hResult, -⟩ :=
    slideshow_builds canvas t c.config.encoder.pixels r.settings.transition c.config.fadeOffsets
      hImages (Nat.le_add_right r.images.length r.audio.toList.length)
  have hBuilt := Strategy.log_build hResult
  have hSources : chain.sources.length = r.images.length := by simp [chain, slideshowChain]
  rw [hSources] at hBuilt
  have hLog := log_assemble hPaths hTimes
  rw [upscaleEvents_canvas, ← hBuilt] at hLog
  refine ⟨_, _, _, hNormal, hLog, ?_⟩
  have hWarnings : r.upscaleWarnings.filter Event.isUpscaled = r.upscaleWarnings :=
    List.filter_eq_self.mpr fun _ => isUpscaled_of_mem_upscaleWarnings
  have hNotes : (strategy.notes r.images.length : List (Event T)).filter Event.isUpscaled = [] :=
    List.filter_eq_nil_iff.mpr fun e he => by simp [Strategy.isUpscaled_of_mem_notes he]
  rw [hLog, hBuilt, List.filter_append, List.filter_append, List.filter_append, hWarnings, hNotes]
  simp [Event.isUpscaled, Event.level, Event.text]

/-- Five pictures on a canvas of 1920 by 1080: one is too narrow and one a line too low. The first
is large enough, one has no known height, and one just fits. -/
theorem log_assemble_upscaled_sides :
    let c : Config.Checked Float := ⟨{ Config.usual with fadeOffsets := .constant }, by rfl⟩
    let t : Timeline Float := ⟨2.0, 0.8, by decide, by decide⟩
    let image (name : String) (width height : Option UInt32) : Image :=
      ⟨.ofString name, width, height⟩
    let r : Request Float :=
      ⟨[image "a.png" (some 4000) (some 3000), image "b.png" (some 1000) (some 3000),
        image "c.png" (some 10) none, image "d.png" (some 1920) (some 1080),
        image "e.png" (some 1920) (some 1079)], none, ⟨.fade, 0.8, .usual⟩, .ofString "out.mp4"⟩
    r.checkPaths = .ok () ∧ Timeline.make c.config.photo r.settings.duration = .ok t ∧
      ∃ normalized nodes offsets,
        (Graph.empty 5).pushAll (normalNodes ⟨1920, 1080⟩ 5) = .ok normalized ∧
        (r.assemble c).log =
          [.assembling 5 .fade, .resolved ⟨1920, 1080⟩ t.window,
            .upscaled 1 (.ofString "b.png") 1000 3000, .upscaled 4 (.ofString "e.png") 1920 1079] ++
          ((Strategy.fade .constant).build (slideshowChain t "yuv420p" 5) normalized).log ++
          [.assembled nodes offsets] ∧
        (r.assemble c).log.filter Event.isUpscaled =
          [.upscaled 1 (.ofString "b.png") 1000 3000,
            .upscaled 4 (.ofString "e.png") 1920 1079] := by
  intro c t image r
  have hPaths : r.checkPaths = .ok () :=
    checkPaths_eq_ok_iff.mpr
      ⟨by simp [r], by decide, ⟨by simp [r, image], by simp [r], by simp [r]⟩⟩
  have hTimes : Timeline.make c.config.photo r.settings.duration = .ok t :=
    Timeline.make_eq_ok_iff.mpr ⟨rfl, rfl⟩
  have hWarnings : r.upscaleWarnings =
      [.upscaled 1 (.ofString "b.png") 1000 3000, .upscaled 4 (.ofString "e.png") 1920 1079] := by
    rw [← upscaleEvents_canvas]
    rfl
  refine ⟨hPaths, hTimes, ?_⟩
  rw [← hWarnings]
  exact log_assemble_upscaled hPaths hTimes

end Request

end Diaporama
