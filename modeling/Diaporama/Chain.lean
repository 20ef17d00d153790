import Diaporama.Graph.Basic
import Diaporama.Source
import Diaporama.Traced

/-!
# Chains

A chain joins the links of several pictures into one stream. Plain blends run from left to right,
each on the result of the one before; the fade style also fades every picture in and the stream out.
A single picture is never blended. The nodes of a chain are planned first and then pushed one after
the other, up to the first that the graph refuses.
-/

namespace Diaporama

/-- One step of a plan: a node to push, or an event to report. -/
inductive Step (T : Type) where
  | node (node : Node T)
  | event (event : Event T)

/-- What pushing a plan came to; nodes pushed before a refusal stay. -/
structure Progress (T : Type) where
  graph : Graph T
  log : List (Event T)
  result : Except Violation Unit

namespace Graph

variable {T : Type}

def follow (g : Graph T) : List (Step T) → Progress T
  | [] => ⟨g, [], .ok ()⟩
  | .event e :: steps =>
    let rest := g.follow steps
    { rest with log := e :: rest.log }
  | .node n :: steps =>
    match g.push n with
    | .ok next => next.follow steps
    | .error violation => ⟨g, [], .error violation⟩

def pushAll (g : Graph T) (ns : List (Node T)) : Except Violation (Graph T) :=
  ns.foldlM push g

end Graph

/-- How the pictures of a slideshow are chained. -/
inductive Strategy where
  /-- Blends only; `stem` begins the names of the links between them. -/
  | blend (style : BlendStyle) (stem : String)
  | fade (offsets : FadeOffsets)
  deriving DecidableEq, Repr

structure Chain (T : Type) [Seconds T] where
  sources : List String
  timeline : Timeline T
  sink : String
  pixels : String

namespace Chain

variable {T : Type} [Seconds T]

def numbered (stem : String) (i : Nat) : String :=
  stem ++ toString i

def blendNode (style : BlendStyle) (duration offset : T) (i : Nat) (first second out : String) :
    Node T where
  label := numbered "xfade" i
  role := .transition
  filters := [.blend style duration offset]
  inputs := [.link first, .link second]
  outputs := [out]

/-- The blends from number `i` on, when `first` carries what was joined so far. -/
def blendNodes (style : BlendStyle) (duration : T) (offset : Nat → T) (stem : String) (i : Nat)
    (first : String) : List String → List (Node T)
  | [] => []
  | second :: rest =>
    blendNode style duration (offset i) i first second (numbered stem i) ::
      blendNodes style duration offset stem (i + 1) (numbered stem i) rest

def blendedLink (stem : String) (i : Nat) (first : String) : List String → String
  | [] => first
  | _ :: rest => blendedLink stem (i + 1) (numbered stem i) rest

def entranceNode (duration : T) (i : Nat) (source : String) : Node T where
  label := numbered "fadein" i
  role := .entrance
  filters := [.fade .fromBlack Seconds.zero duration]
  inputs := [.link source]
  outputs := [numbered "f" i]

/-- The last node: it ends the stream in the sink, in the output's pixel format. -/
def outputNode (c : Chain T) (last : String) (filters : List (Filter T)) : Node T where
  label := "output"
  role := .output
  filters := filters ++ [.format c.pixels]
  inputs := [.link last]
  outputs := [c.sink]

def entranceNodes (c : Chain T) : List (Node T) :=
  c.sources.zipIdx.map fun (source, i) => entranceNode c.timeline.blend i source

def fadedLinks (c : Chain T) : List String :=
  (List.range c.sources.length).map (numbered "f")

end Chain

namespace Strategy

variable {T : Type} [Seconds T]

def ofKind (kind : TransitionKind) (offsets : FadeOffsets) : Strategy :=
  match kind with
  | .dissolve => blend .dissolve "b"
  | .slideLeft => blend .slideLeft "s"
  | .slideRight => blend .slideRight "s"
  | .zoom => blend .zoomIn "z"
  | .fade => fade offsets

/-- The length of the stream from `n` pictures. With constant offsets every blend starts over at the
first picture's end, so the stream does not grow beyond two pictures. -/
def duration (s : Strategy) (t : Timeline T) (n : Nat) : T :=
  match s with
  | fade .constant => t.total (min n 2)
  | fade .accumulate | blend _ _ => t.total n

def fadeOffset (t : Timeline T) : FadeOffsets → Nat → T
  | .accumulate => t.offset
  | .constant => fun _ => t.photo

def exitStart (t : Timeline T) (n : Nat) : FadeOffsets → T
  | .accumulate => t.displayed n
  | .constant => t.photo

def fadeNotes : FadeOffsets → List (Event T)
  | .accumulate => []
  | .constant => [.constantOffsets]

def blendSteps (c : Chain T) (style : BlendStyle) (stem : String) (first : String)
    (rest : List String) : List (Step T) :=
  (Chain.blendNodes style c.timeline.blend c.timeline.offset stem 0 first rest).map .node ++
    [.node (c.outputNode (Chain.blendedLink stem 0 first rest) [])]

def fadeSteps (c : Chain T) (offsets : FadeOffsets) : List (Step T) :=
  let t := c.timeline
  let exit := Filter.fade .toBlack (exitStart t c.sources.length offsets) t.blend
  match c.fadedLinks with
  | [] => []
  | first :: rest =>
    c.entranceNodes.map .node ++ (fadeNotes offsets).map .event ++
      (Chain.blendNodes .fade t.blend (fadeOffset t offsets) "x" 0 first rest).map .node ++
      [.node (c.outputNode (Chain.blendedLink "x" 0 first rest) [exit])]

def plan? (s : Strategy) (c : Chain T) : Option (List (Step T)) :=
  match c.sources with
  | [] => none
  | [only] => some [.node (c.outputNode only [])]
  | first :: rest =>
    match s with
    | blend style stem => some (blendSteps c style stem first rest)
    | fade offsets => some (fadeSteps c offsets)

/-- A graph after a chain was built on it, with the log and the outcome. -/
structure Outcome (T : Type) where
  graph : Graph T
  log : List (Event T)
  result : Except (Error T) Unit

def build (s : Strategy) (c : Chain T) (g : Graph T) : Outcome T :=
  match s.plan? c with
  | none => ⟨g, [], .error .noImages⟩
  | some steps =>
    let progress := g.follow steps
    ⟨progress.graph, progress.log, progress.result.mapError .graph⟩

end Strategy

end Diaporama
