import Diaporama.Error

/-!
# Computations that report what they do

Assembling a slideshow leaves a log. The log is kept also when the computation fails, up to the
point where it did.
-/

namespace Diaporama

inductive Event (T : Type) where
  | notice (notice : Notice)
  | assembling (images : Nat) (kind : TransitionKind)
  | resolved (canvas : Canvas) (window : T)
  | upscaled (index : Nat) (path : FilePath) (width height : UInt32)
  | assembled (nodes : Nat) (offsets : List T)
  | constantOffsets

/-- The weight of an event; a span stands for all that happens inside it. -/
inductive Level where
  | span
  | debug
  | warn
  deriving DecidableEq, Repr

namespace Event

def level {T : Type} : Event T → Level
  | notice _ | upscaled .. | constantOffsets => .warn
  | resolved .. | assembled .. => .debug
  | assembling .. => .span

def text {T : Type} : Event T → String
  | notice (.unknownTransition _) => "unknown transition kind, using dissolve"
  | notice (.unknownAspect _) => "unknown aspect ratio, using 16:9"
  | assembling .. => "assemble"
  | resolved .. => "resolved canvas and timeline"
  | upscaled .. => "image is smaller than the canvas and will be upscaled"
  | assembled .. => "filter graph assembled"
  | constantOffsets => "fade blends use a constant offset; later images overlap the first blend"

/-- Times in a list keep a point and turn to exponents below `1e-4` and from `1e16` on. -/
def listLayout : Layout :=
  ⟨fun lead => -4 ≤ lead && lead < 16, true, false, .up⟩

def listed (xs : List Float) : String :=
  "[" ++ ", ".intercalate (xs.map listLayout.text) ++ "]"

def fields : Event Float → List (String × String)
  | notice (.unknownTransition selector) => [("selector", selector)]
  | notice (.unknownAspect selector) => [("selector", selector)]
  | assembling images kind => [("images", toString images), ("kind", kind.name)]
  | resolved canvas window =>
    [("width", toString canvas.width), ("height", toString canvas.height),
      ("window_s", Seconds.shown window)]
  | upscaled index path width height =>
    [("index", toString index), ("path", path.display), ("width", toString width),
      ("height", toString height)]
  | assembled nodes offsets => [("nodes", toString nodes), ("offsets", listed offsets)]
  | constantOffsets => []

end Event

structure Traced (T α : Type) where
  log : List (Event T)
  result : Except (Error T) α

namespace Traced

variable {T α β : Type}

instance : Monad (Traced T) where
  pure a := ⟨[], .ok a⟩
  bind x f :=
    match x.result with
    | .ok a => ⟨x.log ++ (f a).log, (f a).result⟩
    | .error e => ⟨x.log, .error e⟩

def emit (e : Event T) : Traced T Unit :=
  ⟨[e], .ok ()⟩

def emitAll (es : List (Event T)) : Traced T Unit :=
  ⟨es, .ok ()⟩

def fail (e : Error T) : Traced T α :=
  ⟨[], .error e⟩

def ofExcept (r : Except (Error T) α) : Traced T α :=
  ⟨[], r⟩

theorem bind_of_ok {x : Traced T α} {f : α → Traced T β} {a : α} (h : x.result = .ok a) :
    x >>= f = ⟨x.log ++ (f a).log, (f a).result⟩ := by
  simp [bind, h]

theorem bind_of_error {x : Traced T α} {f : α → Traced T β} {e : Error T}
    (h : x.result = .error e) : x >>= f = ⟨x.log, .error e⟩ := by
  simp [bind, h]

end Traced

end Diaporama
