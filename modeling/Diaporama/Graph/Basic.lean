import Std.Data.TreeMap
import Std.Data.TreeSet
import Diaporama.Graph.Node
import Diaporama.Graph.Violation

/-!
# Filter graphs

A graph grows node by node. A node is admitted only if its label and its outputs are new, its first
filter reads as many streams as it has inputs, and each link it reads was written before and is
still unread. The labels and the state of every link are kept beside the nodes, and equality looks
at the nodes alone.
-/

namespace Diaporama

inductive LinkState where
  | unread
  | consumed
  deriving DecidableEq, Repr

structure Graph (T : Type) where
  inputCount : Nat
  nodes : Array (Node T)
  labels : Std.TreeSet String
  links : Std.TreeMap String LinkState

namespace Graph

variable {T : Type}

/-- The graph without nodes over the encoder inputs `0, …, inputCount - 1`. -/
def empty (inputCount : Nat) : Graph T :=
  ⟨inputCount, #[], ∅, ∅⟩

instance [BEq T] : BEq (Graph T) where
  beq g h := g.inputCount == h.inputCount && g.nodes == h.nodes

/-- Every input is an encoder input in range, or an unread link read only once; `seen` holds the
links read so far by the same node. -/
def checkInputs (g : Graph T) (node : String) (seen : List String) :
    List Pad → Except Violation Unit
  | [] => .ok ()
  | .source input _ :: pads =>
    if input < g.inputCount then g.checkInputs node seen pads
    else .error (.noSuchInput node input g.inputCount)
  | .link name :: pads =>
    match g.links[name]? with
    | none => .error (.unknownLink node name)
    | some .consumed => .error (.consumedLink node name)
    | some .unread =>
      if name ∈ seen then .error (.repeatedInput node name)
      else g.checkInputs node (name :: seen) pads

def checkOutputs (g : Graph T) (node : String) (seen : List String) :
    List String → Except Violation Unit
  | [] => .ok ()
  | name :: names =>
    if g.links.contains name || name ∈ seen then .error (.repeatedOutput node name)
    else g.checkOutputs node (name :: seen) names

def check (g : Graph T) (n : Node T) : Except Violation Unit :=
  if g.labels.contains n.label then .error (.repeatedLabel n.label)
  else match n.filters with
    | [] => .error (.noFilters n.label)
    | first :: _ =>
      if n.inputs.length ≠ first.arity then
        .error (.inputCount n.label n.inputs.length first.arity)
      else if n.outputs.isEmpty then .error (.noOutputs n.label)
      else do
        g.checkInputs n.label [] n.inputs
        g.checkOutputs n.label [] n.outputs

/-- The graph with a node behind all others, whether it fits or not. -/
def insert (g : Graph T) (n : Node T) : Graph T where
  inputCount := g.inputCount
  nodes := g.nodes.push n
  labels := g.labels.insert n.label
  links :=
    let read := n.reads.foldl (fun links name => links.insert name .consumed) g.links
    n.outputs.foldl (fun links name => links.insert name .unread) read

/-- The graph with one more node, if it fits. -/
def push (g : Graph T) (n : Node T) : Except Violation (Graph T) := do
  g.check n
  return g.insert n

def openLinks (g : Graph T) : List String :=
  (g.links.toList.filter fun entry => entry.2 == .unread).map (·.1)

/-- A finished graph leaves exactly one link open, its sink. -/
def validate (g : Graph T) (sink : String) : Except Violation Unit :=
  match g.openLinks with
  | [] => .error .nothingOpen
  | [only] => if only = sink then .ok () else .error (.openLinks sink [only])
  | found => .error (.openLinks sink found)

def producer? (g : Graph T) (link : String) : Option (Node T) :=
  g.nodes.find? fun n => n.outputs.contains link

def withRole (g : Graph T) (role : Role) : List (Node T) :=
  g.nodes.toList.filter fun n => n.role == role

def expression (g : Graph Float) : String :=
  ";".intercalate (g.nodes.toList.map Node.statement)

end Graph

end Diaporama
