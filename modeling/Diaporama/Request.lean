import Diaporama.FilePath
import Diaporama.Style

/-!
# Requests

A slideshow as it is asked for: pictures in the order they are shown, perhaps a soundtrack, a style,
and the file to write.
-/

namespace Diaporama

/-- A picture; its size in pixels is given where it is known. -/
structure Image where
  path : FilePath
  width : Option UInt32
  height : Option UInt32
  deriving BEq

def Image.ofPath (path : FilePath) : Image :=
  ⟨path, none, none⟩

namespace Image

/-- The size of a picture that is enlarged to cover the canvas: one of its sides is smaller. -/
def undersized? (i : Image) (c : Canvas) : Option (UInt32 × UInt32) :=
  match i.width, i.height with
  | some width, some height =>
    if width < c.width || height < c.height then some (width, height) else none
  | _, _ => none

end Image

structure Request (T : Type) where
  images : List Image
  audio : Option FilePath
  settings : Settings T
  output : FilePath
  deriving BEq

end Diaporama
