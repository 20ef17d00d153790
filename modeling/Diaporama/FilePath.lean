import Diaporama.Text.Utf8

/-!
# File paths

A path is a sequence of bytes, which may fail to be text. Two paths are equal as paths when they
have the same start and the same components: repeated separators and `.` between components do not
count. The parent is cut from the bytes as they are written.
-/

namespace Diaporama

structure FilePath where
  bytes : ByteArray

namespace FilePath

def ofString (s : String) : FilePath :=
  ⟨s.toUTF8⟩

instance : Inhabited FilePath := ⟨ofString ""⟩

def isEmpty (p : FilePath) : Bool :=
  p.bytes.isEmpty

def text? (p : FilePath) : Option String :=
  String.fromUTF8? p.bytes

@[simp] theorem text?_ofString (s : String) : (ofString s).text? = some s :=
  dif_pos s.isValidUTF8

def display (p : FilePath) : String :=
  Text.lossy p.bytes

theorem display_eq_of_text? {p : FilePath} {s : String} (h : p.text? = some s) :
    p.display = s :=
  Text.lossy_eq_of_fromUTF8? h

def separator : UInt8 := 0x2F

def dot : UInt8 := 0x2E

/-- The parts between separators; there is one more of them than separators. -/
def split : List UInt8 → List (List UInt8)
  | [] => [[]]
  | b :: bs =>
    if b = separator then [] :: split bs
    else match split bs with
      | [] => [[b]]
      | part :: parts => (b :: part) :: parts

/-- What a path starts from: the root, the current directory by its name `.`, or neither. -/
inductive Anchor where
  | root
  | here
  | unmarked
  deriving DecidableEq, Repr

def Anchor.bytes : Anchor → List UInt8
  | root => [separator]
  | here => [dot]
  | unmarked => []

def anchored : List UInt8 → Anchor × List UInt8
  | [] => (.unmarked, [])
  | b :: bs =>
    if b = separator then (.root, bs)
    else if b = dot && (bs.isEmpty || bs.head? == some separator) then (.here, bs)
    else (.unmarked, b :: bs)

/-- An empty part and a `.` behind the anchor name nothing. -/
def isVoid (part : List UInt8) : Bool :=
  part.isEmpty || part == [dot]

def anchor (p : FilePath) : Anchor :=
  (anchored p.bytes.toList).1

def components (p : FilePath) : List (List UInt8) :=
  (split (anchored p.bytes.toList).2).filter (!isVoid ·)

instance : BEq FilePath where
  beq p q := decide (p.anchor = q.anchor) && decide (p.components = q.components)

theorem beq_iff {p q : FilePath} :
    (p == q) = true ↔ p.anchor = q.anchor ∧ p.components = q.components := by
  simp [BEq.beq]

def join : List (List UInt8) → List UInt8
  | [] => []
  | [part] => part
  | part :: parts => part ++ separator :: join parts

/-- The path without its last component, if it has one; the root and the empty path do not. -/
def parent? (p : FilePath) : Option FilePath :=
  let (start, body) := anchored p.bytes.toList
  match (split body).reverse.dropWhile isVoid with
  | [] => if start = .here then some (ofString "") else none
  | _ :: before =>
    let kept := (before.dropWhile isVoid).reverse
    some ⟨(start.bytes ++ join kept).toByteArray⟩

end FilePath

end Diaporama
