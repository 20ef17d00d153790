import Diaporama.Rehearsal.System.Volume

/-!
# Patterns

In a pattern `*` stands for any text, `?` for any character and brackets for one character of a set,
unless they are quoted or stand behind a backslash. A pattern is matched against a text, trims one at
either end, or stands for the names of files.
-/

namespace Diaporama.Rehearsal

abbrev Pattern := List (Char × Bool)

namespace Pattern

def ofText (text : Octets) (isQuoted : Bool) : Pattern :=
  text.map (·, isQuoted)

def toText (p : Pattern) : Octets :=
  p.map (·.1)

/-- A pattern in which what stands behind a backslash is quoted. -/
def settled : Pattern → Pattern
  | ('\\', false) :: (c, _) :: rest => (c, true) :: settled rest
  | c :: rest => c :: settled rest
  | [] => []

/-- The class of characters named at the start of a pattern, behind its bracket. -/
def classAt? (p : Pattern) : Option (String × Pattern) :=
  let text := (p.takeWhile (!·.2)).map (·.1)
  (Octets.classNames.find? fun name => (":" ++ name ++ ":]").toList.isPrefixOf text).map
    fun name => (name, p.drop (name.length + 3))

/-- Whether a set in brackets holds a character, and the pattern behind it; a set that is not closed
is none. The first member may be a bracket. -/
def setAt? (c : Char) : Nat → Bool → Pattern → Bool → Option (Bool × Pattern)
  | 0, _, _, _ => none
  | _ + 1, _, [], _ => none
  | fuel + 1, isFirst, (m, isQuoted) :: rest, found =>
    if m = ']' && !isQuoted && !isFirst then some (found, rest)
    else
      match if m = '[' && !isQuoted then classAt? rest else none with
      | some (name, rest) => setAt? c fuel false rest (found || Octets.isInClass name c)
      | none =>
        match rest with
        | ('-', false) :: (upper, upperQuoted) :: behind =>
          if upper = ']' && !upperQuoted then setAt? c fuel false rest (found || c = m)
          else setAt? c fuel false behind (found || (m ≤ c && c ≤ upper))
        | _ => setAt? c fuel false rest (found || c = m)

def isMatch : Nat → Pattern → Octets → Bool
  | 0, _, _ => false
  | _ + 1, [], cs => cs.isEmpty
  | fuel + 1, (p, isQuoted) :: ps, cs =>
    if isQuoted then
      match cs with
      | c :: cs => p = c && isMatch fuel ps cs
      | [] => false
    else if p = '*' then
      isMatch fuel ps cs ||
        match cs with
        | _ :: rest => isMatch fuel ((p, isQuoted) :: ps) rest
        | [] => false
    else match cs with
      | [] => false
      | c :: cs =>
        if p = '?' then isMatch fuel ps cs
        else if p = '[' then
          let (isNegated, set) := match ps with
            | ('!', false) :: rest => (true, rest)
            | ps => (false, ps)
          match setAt? c (set.length + 1) true set false with
          | some (found, rest) => (found != isNegated) && isMatch fuel rest cs
          | none => p = c && isMatch fuel ps cs
        else p = c && isMatch fuel ps cs

def accepts (p : Pattern) (text : Octets) : Bool :=
  isMatch (p.length + text.length + 1) p.settled text

def trimStart (longest : Bool) (p : Pattern) (text : Octets) : Octets :=
  let cuts := List.range (text.length + 1)
  let cuts := if longest then cuts.reverse else cuts
  match cuts.find? fun n => p.accepts (text.take n) with
  | some n => text.drop n
  | none => text

def trimEnd (longest : Bool) (p : Pattern) (text : Octets) : Octets :=
  let cuts := List.range (text.length + 1)
  let cuts := if longest then cuts else cuts.reverse
  match cuts.find? fun n => p.accepts (text.drop n) with
  | some n => text.take n
  | none => text

/-! ## File names -/

def split : Pattern → List Pattern
  | [] => [[]]
  | c :: cs =>
    if c.1 = '/' then [] :: split cs
    else match split cs with
      | part :: parts => (c :: part) :: parts
      | [] => [[c]]

def closesBracket (p : Pattern) : Bool :=
  let p := match p with
    | ('!', false) :: rest => rest
    | p => p
  (p.drop 1).any (· = (']', false))

def isActive : Pattern → Bool
  | [] => false
  | (c, isQuoted) :: rest =>
    (!isQuoted && (c = '*' || c = '?' || (c = '[' && closesBracket rest))) || isActive rest

/-- The names in a directory that match a part of a path. Hidden names are matched by patterns that
start with a dot only. -/
def namesMatching (v : Volume) (directory : NodeId) (part : Pattern) : List Octets :=
  let isHidden := (part.head?.map (·.1)) = some '.'
  let all := if isHidden then ['.'] :: ['.', '.'] :: v.names directory else v.names directory
  all.filter fun name => (isHidden || name.head? ≠ some '.') && isMatch (part.length + name.length + 1) part name

/-- The paths that match the parts of a pattern, `shown` standing before them. -/
def paths (v : Volume) (here : NodeId) (shown : Octets) : List Pattern → List Octets
  | [] => []
  | part :: parts =>
    if part.isActive then
      match v.find? here (if shown.isEmpty then ['.'] else shown) with
      | none => []
      | some directory =>
        (namesMatching v directory part).flatMap fun name =>
          if parts.isEmpty then [shown ++ name] else paths v here (shown ++ name ++ ['/']) parts
    else
      let shown := shown ++ part.toText
      if parts.isEmpty then if (v.findEntry? here shown).isSome then [shown] else []
      else paths v here (shown ++ ['/']) parts

/-- What a pattern stands for in a directory: the files that match, or its own text. -/
def expand (v : Volume) (here : NodeId) (p : Pattern) : List Octets :=
  let parts := split p.settled
  if !parts.any isActive then [p.toText]
  else match paths v here [] parts with
    | [] => [p.toText]
    | found => found.mergeSort Octets.precedes

end Pattern

end Diaporama.Rehearsal
