import Diaporama.Rehearsal.Program.Basic

/-!
# Options of a program

The words of a program are options, some with a value, and operands. An option is a letter behind a
dash; its value is the rest of the word or the next word.
-/

namespace Diaporama.Rehearsal

structure OptionSpec where
  plain : List Char
  valued : List Char
  /-- Options may stand behind operands. -/
  isMixed : Bool := true

structure Options where
  /-- The letters with their values, in order. -/
  given : List (Char × Octets)
  operands : List Octets

namespace Options

def has (o : Options) (letter : Char) : Bool :=
  o.given.any (·.1 = letter)

def value? (o : Options) (letter : Char) : Option Octets :=
  (o.given.reverse).lookup letter

def values (o : Options) (letter : Char) : List Octets :=
  o.given.filterMap fun (l, value) => if l = letter then some value else none

def last? (o : Options) (letters : List Char) : Option Char :=
  ((o.given.filter fun entry => letters.contains entry.1).getLast?).map (·.1)

/-- The letters of one word; the last one may need the next word as its value. -/
def ofLetters (spec : OptionSpec) : Octets → Except String (List (Char × Octets) × Option Char)
  | [] => .ok ([], none)
  | c :: cs =>
    if spec.valued.contains c then .ok (if cs.isEmpty then ([], some c) else ([(c, cs)], none))
    else if spec.plain.contains c then do
      let (more, next) ← ofLetters spec cs
      return ((c, []) :: more, next)
    else .error ("invalid option -- '" ++ c.toString ++ "'")

def ofWords (spec : OptionSpec) : List Octets → Except String Options
  | [] => .ok ⟨[], []⟩
  | ['-', '-'] :: words => .ok ⟨[], words⟩
  | ('-' :: '-' :: name) :: _ => .error ("unrecognized option '--" ++ String.ofList name ++ "'")
  | ('-' :: c :: cs) :: words => do
    let (found, waiting) ← ofLetters spec (c :: cs)
    match waiting, words with
    | some letter, value :: words =>
      let rest ← ofWords spec words
      return ⟨found ++ (letter, value) :: rest.given, rest.operands⟩
    | some letter, [] =>
      throw ("option requires an argument -- '" ++ letter.toString ++ "'")
    | none, words =>
      let rest ← ofWords spec words
      return ⟨found ++ rest.given, rest.operands⟩
  | word :: words =>
    if spec.isMixed then do
      let rest ← ofWords spec words
      return ⟨rest.given, word :: rest.operands⟩
    else .ok ⟨[], word :: words⟩

end Options

namespace Tool

def options (plain valued : String) (status : Nat) (words : List Octets) : Tool Options := do
  match Options.ofWords { plain := plain.toList, valued := valued.toList } words with
  | .ok o => return o
  | .error problem => abortWithHint status problem

end Tool

end Diaporama.Rehearsal
