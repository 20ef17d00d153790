import Diaporama.Proofs.Graph.Sink

/-!
# Streams behind a pad

Followed back through the producers of links, a pad unfolds to a tree: the leaves are streams of
encoder inputs, and every other vertex is a node that was passed.
-/

namespace Diaporama

variable {T : Type}

inductive Stream (T : Type) where
  | input (number : Nat) (kind : StreamKind)
  | filtered (node : Node T) (source : Stream T)
  | joined (node : Node T) (first second : Stream T)

namespace Stream

/-- The encoder inputs a stream is made of, from left to right. -/
def leaves : Stream T → List Pad
  | input number kind => [.source number kind]
  | filtered _ source => source.leaves
  | joined _ first second => first.leaves ++ second.leaves

/-- The nodes a stream passes, each as often as it is passed. -/
def nodes : Stream T → List (Node T)
  | input _ _ => []
  | filtered node source => source.nodes ++ [node]
  | joined node first second => first.nodes ++ second.nodes ++ [node]

end Stream

namespace Graph

variable {g : Graph T}

/-- What a pad stands for when its link is followed back, node by node, to the encoder inputs. -/
inductive Unfolds (g : Graph T) : Pad → Stream T → Prop
  | input (number : Nat) (kind : StreamKind) :
      Unfolds g (.source number kind) (.input number kind)
  | filtered {link : String} {n : Node T} {pad : Pad} {s : Stream T}
      (hNode : g.producer? link = some n) (hInputs : n.inputs = [pad]) (hSource : Unfolds g pad s) :
      Unfolds g (.link link) (.filtered n s)
  | joined {link : String} {n : Node T} {first second : Pad} {s u : Stream T}
      (hNode : g.producer? link = some n) (hInputs : n.inputs = [first, second])
      (hFirst : Unfolds g first s) (hSecond : Unfolds g second u) :
      Unfolds g (.link link) (.joined n s u)

theorem Unfolds.unique {pad : Pad} {s u : Stream T} (h : g.Unfolds pad s) (h' : g.Unfolds pad u) :
    s = u := by
  induction h generalizing u with
  | input number kind =>
      cases h'
      rfl
  | filtered hNode hInputs _ ih =>
      cases h' with
      | filtered hNode' hInputs' hSource' =>
          cases hNode.symm.trans hNode'
          cases hInputs.symm.trans hInputs'
          rw [ih hSource']
      | joined hNode' hInputs' =>
          cases hNode.symm.trans hNode'
          cases hInputs.symm.trans hInputs'
  | joined hNode hInputs _ _ ihFirst ihSecond =>
      cases h' with
      | filtered hNode' hInputs' =>
          cases hNode.symm.trans hNode'
          cases hInputs.symm.trans hInputs'
      | joined hNode' hInputs' hFirst' hSecond' =>
          cases hNode.symm.trans hNode'
          cases hInputs.symm.trans hInputs'
          rw [ihFirst hFirst', ihSecond hSecond']

end Graph

end Diaporama
