import Diaporama.Document.Settings
import Diaporama.Fingerprint
import Diaporama.Source

/-!
# The document of a job

Nodes, graphs, sources and jobs as JSON.
-/

namespace Diaporama

open Json (Value)

def StreamKind.toValue : StreamKind → Value
  | video => .string "video"
  | audio => .string "audio"

def Pad.toValue : Pad → Value
  | source input stream =>
    .object [("source", .object [("input", .natural input), ("stream", stream.toValue)])]
  | link name => .object [("label", .string name)]

def BlendStyle.document : BlendStyle → String
  | fade => "fade"
  | dissolve => "dissolve"
  | slideLeft => "slide_left"
  | slideRight => "slide_right"
  | zoomIn => "zoom_in"

def Filter.toValue : Filter Float → Value
  | cover canvas => .object [("filter", .string "scale_cover"), ("size", canvas.toValue)]
  | crop canvas => .object [("filter", .string "crop"), ("size", canvas.toValue)]
  | squarePixels => .object [("filter", .string "set_sar_square")]
  | format pixels => .object [("filter", .string "format"), ("pix_fmt", .string pixels)]
  | fade direction start duration =>
    .object [("filter", .string "fade"), ("direction", .string direction.name),
      ("start_s", .real start), ("duration_s", .real duration)]
  | blend style duration offset =>
    .object [("filter", .string "xfade"), ("transition", .string style.document),
      ("duration_s", .real duration), ("offset_s", .real offset)]

def Role.name : Role → String
  | normalize => "normalize"
  | entrance => "entrance"
  | transition => "transition"
  | output => "output"

def Node.toValue (n : Node Float) : Value :=
  .object [("label", .string n.label), ("role", .string n.role.name),
    ("ops", .list (n.filters.map Filter.toValue)), ("inputs", .list (n.inputs.map Pad.toValue)),
    ("outputs", .list (n.outputs.map .string))]

def Graph.toValue (g : Graph Float) : Value :=
  .object [("nodes", .list (g.nodes.toList.map Node.toValue))]

def Source.toValue (s : Source Float) : Except WriteFault Value := do
  return .object [("index", .natural s.index), ("path", ← s.path.toValue),
    ("display_window_s", .real s.hold)]

def Input.toValue : Input Float → Except WriteFault Value
  | still path hold => do
    return .object [("kind", .string "looped_still"), ("path", ← path.toValue),
      ("hold_s", .real hold)]
  | audio path => do
    return .object [("kind", .string "audio"), ("path", ← path.toValue)]

namespace Job

def toValue (j : Job Float) : Except WriteFault Value := do
  return .object [("inputs", .list (← j.inputs.mapM Input.toValue)), ("graph", j.graph.toValue),
    ("video_pad", .string j.videoLink),
    ("audio", .ofOption (fun input => .object [("input_index", .natural input)]) j.audio),
    ("encoder", j.encoder.toValue), ("output_path", ← j.output.toValue),
    ("dimensions", j.canvas.toValue), ("duration_s", .real j.duration)]

def document (j : Job Float) : Except WriteFault String := do
  let value : Value := .object [("args", .list (j.args.map .string)),
    ("fingerprint", .string j.fingerprint.text), ("job", ← j.toValue)]
  return value.sorted.pretty 0

end Job

end Diaporama
