import Diaporama.Rehearsal.Script.Pattern

/-!
# Fields

A word whose expansions are done is a list of parts. It gives fields: the values that were not
quoted are split at separators, each argument of `"$@"` begins a field of its own, and patterns
become the names of files.
-/

namespace Diaporama.Rehearsal

inductive Part where
  | text (text : Octets) (isQuoted : Bool)
  /-- Quotes, which make a field even if nothing is in them. -/
  | mark
  /-- A value that is split at separators. -/
  | value (text : Octets)
  /-- The arguments, each by itself. -/
  | each (arguments : List Octets) (isQuoted : Bool)

namespace Part

/-- The text of parts that are not split; arguments are joined by `separator`. -/
def joined (separator : Octets) (ps : List Part) : Octets :=
  ps.flatMap fun p =>
    match p with
    | text cs _ | value cs => cs
    | mark => []
    | each arguments _ => separator.intercalate arguments

def pattern (separator : Octets) (ps : List Part) : Pattern :=
  ps.flatMap fun p =>
    match p with
    | text cs isQuoted => Pattern.ofText cs isQuoted
    | mark => []
    | value cs => Pattern.ofText cs false
    | each arguments isQuoted => Pattern.ofText (separator.intercalate arguments) isQuoted

end Part

/-- The fields parts have given so far, the last one first, and the one being built. -/
structure Fields where
  done : List Pattern
  /-- The characters so far, the last one first. -/
  current : Pattern
  hasMark : Bool
  /-- Blank separators end a field once, and another separator behind them belongs to them. -/
  inBlanks : Bool
  /-- The last part were arguments, so that a field is there even if it is empty. -/
  isOpen : Bool

namespace Fields

def start : Fields := ⟨[], [], false, false, false⟩

def close (f : Fields) : Fields :=
  { f with done := f.current.reverse :: f.done, current := [], hasMark := false }

def isFresh (f : Fields) : Bool :=
  f.current.isEmpty && !f.hasMark

def push (isQuoted : Bool) (f : Fields) (c : Char) : Fields :=
  { f with current := (c, isQuoted) :: f.current, inBlanks := false }

def separate (isBlank : Bool) (f : Fields) : Fields :=
  if f.inBlanks then { f with inBlanks := isBlank }
  else if isBlank && f.isFresh then f
  else { f.close with inBlanks := isBlank }

def isDefaultSeparator (c : Char) : Bool :=
  c = ' ' || c = '\t' || c = '\n'

def addSplit (separators : Octets) (f : Fields) (text : Octets) : Fields :=
  text.foldl (fun f c =>
    if separators.contains c then f.separate (isDefaultSeparator c) else f.push false c) f

def addEach (add : Fields → Octets → Fields) (divide : Fields → Fields) (f : Fields) :
    List Octets → Fields
  | [] => f
  | [text] => add f text
  | text :: texts => addEach add divide (divide (add f text)) texts

def addPart (separators : Octets) (f : Fields) : Part → Fields
  | .text text isQuoted => text.foldl (push isQuoted) { f with inBlanks := false }
  | .mark => { f with hasMark := true, inBlanks := false }
  | .value text =>
    if text.isEmpty then f
    else { addSplit separators { f with inBlanks := false } text with isOpen := false }
  | .each [] _ => f
  | .each arguments true =>
    let f := addEach (fun f text => text.foldl (push true) f) close { f with inBlanks := false }
      arguments
    { f with isOpen := true }
  | .each arguments false =>
    match separators with
    | [] => addEach (addSplit []) (separate true) { f with inBlanks := false, isOpen := false } arguments
    | c :: _ =>
      let text := [c].intercalate arguments
      if text.isEmpty then f
      else { addSplit separators { f with inBlanks := false } text with isOpen := false }

def ofParts (separators : Octets) (ps : List Part) : List Pattern :=
  let f := ps.foldl (addPart separators) start
  (if f.isFresh && !f.isOpen then f.done else f.close.done).reverse

end Fields

end Diaporama.Rehearsal
