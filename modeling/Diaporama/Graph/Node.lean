import Diaporama.Canvas
import Diaporama.Seconds

/-!
# Nodes of a filter graph

A node applies a chain of filters to the streams on its input pads and names the streams it writes.
Its statement is the text the encoder reads: input pads, filters joined by commas, output links.
-/

namespace Diaporama

inductive StreamKind where
  | video
  | audio
  deriving DecidableEq, Repr

def StreamKind.letter : StreamKind → String
  | video => "v"
  | audio => "a"

/-- Where a node reads from: a stream of an encoder input, or a link another node writes. -/
inductive Pad where
  | source (input : Nat) (stream : StreamKind)
  | link (name : String)
  deriving DecidableEq, Repr

namespace Pad

def link? : Pad → Option String
  | link name => some name
  | source _ _ => none

def text : Pad → String
  | source input stream => "[" ++ toString input ++ ":" ++ stream.letter ++ "]"
  | link name => "[" ++ name ++ "]"

end Pad

inductive FadeDirection where
  | fromBlack
  | toBlack
  deriving DecidableEq, Repr

def FadeDirection.name : FadeDirection → String
  | fromBlack => "in"
  | toBlack => "out"

inductive BlendStyle where
  | fade
  | dissolve
  | slideLeft
  | slideRight
  | zoomIn
  deriving DecidableEq, Repr

def BlendStyle.name : BlendStyle → String
  | fade => "fade"
  | dissolve => "dissolve"
  | slideLeft => "slideleft"
  | slideRight => "slideright"
  | zoomIn => "zoomin"

inductive Filter (T : Type) where
  /-- Scales to cover the canvas, keeping the picture's proportions. -/
  | cover (canvas : Canvas)
  | crop (canvas : Canvas)
  | squarePixels
  | format (pixels : String)
  | fade (direction : FadeDirection) (start duration : T)
  /-- Blends from the first input to the second, from `offset` on the first one's clock. -/
  | blend (style : BlendStyle) (duration offset : T)
  deriving BEq, Repr

namespace Filter

def arity {T : Type} : Filter T → Nat
  | blend .. => 2
  | _ => 1

def text : Filter Float → String
  | cover canvas => "scale=" ++ canvas.pair ++ ":force_original_aspect_ratio=increase"
  | crop canvas => "crop=" ++ canvas.pair
  | squarePixels => "setsar=1"
  | format pixels => "format=" ++ pixels
  | fade direction start duration =>
    "fade=t=" ++ direction.name ++ ":st=" ++ Seconds.text start ++ ":d=" ++ Seconds.text duration
  | blend style duration offset =>
    "xfade=transition=" ++ style.name ++ ":duration=" ++ Seconds.text duration ++
      ":offset=" ++ Seconds.text offset

end Filter

inductive Role where
  | normalize
  | entrance
  | transition
  | output
  deriving DecidableEq, Repr

structure Node (T : Type) where
  label : String
  role : Role
  filters : List (Filter T)
  inputs : List Pad
  outputs : List String
  deriving BEq, Repr

namespace Node

variable {T : Type}

def reads (n : Node T) : List String :=
  n.inputs.filterMap Pad.link?

theorem mem_reads_iff {n : Node T} {name : String} :
    name ∈ n.reads ↔ Pad.link name ∈ n.inputs := by
  constructor
  · intro h
    obtain ⟨pad, hpad, hname⟩ := List.mem_filterMap.mp h
    cases pad with
    | source => cases hname
    | link other =>
        cases hname
        exact hpad
  · intro h
    exact List.mem_filterMap.mpr ⟨_, h, rfl⟩

def statement (n : Node Float) : String :=
  String.join (n.inputs.map Pad.text) ++
    ",".intercalate (n.filters.map Filter.text) ++
    String.join (n.outputs.map fun name => "[" ++ name ++ "]")

end Node

end Diaporama
