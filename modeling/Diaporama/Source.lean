import Diaporama.Graph.Node
import Diaporama.Request
import Diaporama.Timeline

/-!
# Sources

A source is a picture with its place in the sequence, which is also its number among the encoder
inputs. Its normalize node brings it to the canvas and gives it the alpha plane that blends need.
-/

namespace Diaporama

structure Source (T : Type) where
  index : Nat
  path : FilePath
  hold : T

def blendPixels : String := "yuva420p"

def normalizedLink (i : Nat) : String :=
  "v" ++ toString i

namespace Source

variable {T : Type}

def normalizeNode (s : Source T) (c : Canvas) : Node T where
  label := "norm" ++ toString s.index
  role := .normalize
  filters := [.cover c, .crop c, .squarePixels, .format blendPixels]
  inputs := [.source s.index .video]
  outputs := [normalizedLink s.index]

/-- The sources for pictures held as the timeline says. -/
def ofImages [Seconds T] (t : Timeline T) (images : List Image) : List (Source T) :=
  images.zipIdx.map fun (image, index) => ⟨index, image.path, t.window⟩

theorem length_ofImages [Seconds T] (t : Timeline T) (images : List Image) :
    (ofImages t images).length = images.length := by
  simp [ofImages]

end Source

end Diaporama
