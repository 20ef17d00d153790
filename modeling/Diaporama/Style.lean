import Diaporama.Canvas
import Diaporama.Text.Blank

/-!
# Style

How pictures follow each other and on what canvas. Both choices are made by selectors, texts read
leniently: a selector that names nothing gives the usual choice, and a notice says so.
-/

namespace Diaporama

/-- Something a user may want to know although nothing failed. -/
inductive Notice where
  | unknownTransition (selector : String)
  | unknownAspect (selector : String)
  deriving DecidableEq, Repr

inductive TransitionKind where
  /-- Every picture fades in, blends over, and the last one fades out. -/
  | fade
  | dissolve
  | slideLeft
  | slideRight
  | zoom
  deriving DecidableEq, Repr, Inhabited

namespace TransitionKind

def all : List TransitionKind :=
  [fade, dissolve, slideLeft, slideRight, zoom]

theorem mem_all (k : TransitionKind) : k ∈ all := by
  cases k <;> decide

def usual : TransitionKind := dissolve

def name : TransitionKind → String
  | fade => "fade"
  | dissolve => "dissolve"
  | slideLeft => "slide_left"
  | slideRight => "slide_right"
  | zoom => "zoom"

/-- The selector as it is compared: without blanks around it and with small ASCII letters. -/
def selector (s : String) : String :=
  String.ofList ((Text.trimBlanks s.toList).map Char.toLower)

def ofSelector? (s : String) : Option TransitionKind :=
  if s = "fade" then some fade
  else if s = "dissolve" then some dissolve
  else if s = "slide_left" || s = "slideleft" then some slideLeft
  else if s = "slide_right" || s = "slideright" then some slideRight
  else if s = "zoom" || s = "zoomin" then some zoom
  else none

def select (s : String) : TransitionKind :=
  (ofSelector? (selector s)).getD usual

def notices (s : String) : List Notice :=
  if (ofSelector? (selector s)).isSome then [] else [.unknownTransition (selector s)]

end TransitionKind

inductive AspectRatio where
  | portrait9x16
  | landscape16x9
  | square1x1
  | portrait4x5
  deriving DecidableEq, Repr, Inhabited

namespace AspectRatio

def all : List AspectRatio :=
  [portrait9x16, landscape16x9, square1x1, portrait4x5]

theorem mem_all (r : AspectRatio) : r ∈ all := by
  cases r <;> decide

def usual : AspectRatio := landscape16x9

def name : AspectRatio → String
  | portrait9x16 => "9:16"
  | landscape16x9 => "16:9"
  | square1x1 => "1:1"
  | portrait4x5 => "4:5"

/-- The selector as it is compared: without blanks around it. -/
def selector (s : String) : String :=
  Text.trim s

def ofSelector? (s : String) : Option AspectRatio :=
  all.find? fun r => r.name == s

def select (s : String) : AspectRatio :=
  (ofSelector? (selector s)).getD usual

def notices (s : String) : List Notice :=
  if (ofSelector? (selector s)).isSome then [] else [.unknownAspect (selector s)]

def canvas : AspectRatio → Canvas
  | portrait9x16 => ⟨1080, 1920⟩
  | landscape16x9 => ⟨1920, 1080⟩
  | square1x1 => ⟨1080, 1080⟩
  | portrait4x5 => ⟨1080, 1350⟩

theorem canvas_even (r : AspectRatio) :
    Canvas.make r.canvas.width r.canvas.height = .ok r.canvas := by
  cases r <;> rfl

end AspectRatio

structure Settings (T : Type) where
  transition : TransitionKind
  duration : T
  aspect : AspectRatio
  deriving BEq, Repr

def Settings.usualDuration : Float := 0.8

def Settings.usual : Settings Float where
  transition := .dissolve
  duration := usualDuration
  aspect := .landscape16x9

instance : Inhabited (Settings Float) := ⟨Settings.usual⟩

end Diaporama
