import Diaporama.Chain
import Diaporama.Job

/-!
# Assembly

A request becomes a job. The request is checked first, in a fixed order: there are pictures, the
output has a name, every path is text, both times are positive. Then every picture gets a normalize
node, a chain joins them in the output link, and the job is written down.
-/

namespace Diaporama

variable {T : Type} [Seconds T]

namespace Config.Checked

def usual : Config.Checked Float :=
  ⟨Config.usual, by rfl⟩

instance : Inhabited (Config.Checked Float) := ⟨usual⟩

end Config.Checked

namespace Request

def paths (r : Request T) : List (PathUse × FilePath) :=
  r.images.zipIdx.map (fun (image, index) => (.image index, image.path)) ++
    r.audio.toList.map (.audio, ·) ++ [(.output, r.output)]

/-- The encoder takes its arguments as text, so a path without text cannot be handed over. -/
def checkPaths (r : Request T) : Except (Error T) Unit :=
  if r.images.isEmpty then .error .noImages
  else if r.output.isEmpty then .error .emptyOutput
  else match r.paths.find? fun entry => entry.2.text?.isNone with
    | some (use, path) => .error (.notText use path)
    | none => .ok ()

def upscaleEvents (r : Request T) (c : Canvas) : List (Event T) :=
  r.images.zipIdx.filterMap fun (image, index) =>
    (image.undersized? c).map fun (width, height) => .upscaled index image.path width height

def inputs (r : Request T) (sources : List (Source T)) : List (Input T) :=
  sources.map (fun s => .still s.path s.hold) ++ r.audio.toList.map .audio

/-- The body of assembly, once its beginning is on the log. -/
def compile (r : Request T) (c : Config.Checked T) : Traced T (Job T) := do
  Traced.ofExcept r.checkPaths
  let canvas := r.settings.aspect.canvas
  let timeline ← Traced.ofExcept <|
    (Timeline.make c.config.photo r.settings.duration).mapError Error.ofTimeline
  Traced.emit (.resolved canvas timeline.window)
  let sources := Source.ofImages timeline r.images
  Traced.emitAll (r.upscaleEvents canvas)
  let start := Graph.empty (sources.length + r.audio.toList.length)
  let normalized ← Traced.ofExcept <|
    (start.pushAll (sources.map (·.normalizeNode canvas))).mapError Error.graph
  let strategy := Strategy.ofKind r.settings.transition c.config.fadeOffsets
  let built := strategy.build
    ⟨sources.map fun s => normalizedLink s.index, timeline, outputLink, c.config.encoder.pixels⟩
    normalized
  Traced.emitAll built.log
  Traced.ofExcept built.result
  Traced.ofExcept ((built.graph.validate outputLink).mapError Error.graph)
  Traced.emit (.assembled built.graph.nodes.size (timeline.offsets sources.length))
  return {
    inputs := r.inputs sources
    graph := built.graph
    videoLink := outputLink
    audio := r.audio.map fun _ => sources.length
    encoder := c.config.encoder
    output := r.output
    canvas := canvas
    duration := strategy.duration timeline sources.length }

def assemble (r : Request T) (c : Config.Checked T) : Traced T (Job T) := do
  Traced.emit (.assembling r.images.length r.settings.transition)
  r.compile c

end Request

end Diaporama
