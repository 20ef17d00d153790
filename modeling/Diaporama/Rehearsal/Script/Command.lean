import Diaporama.Rehearsal.Octets

/-!
# Commands and words

What a script says: commands made of words, and words made of pieces that are expanded one after the
other. A here-document is kept apart from the command it belongs to, under a number.
-/

namespace Diaporama.Rehearsal

inductive Alteration where
  | plain
  | size
  /-- Another text in place of a value that is missing. -/
  | otherwise
  /-- The same, and the name gets that text as its value. -/
  | assign
  /-- A missing value is a mistake. -/
  | require
  /-- Another text in place of a value that is there. -/
  | instead
  | trimStart (longest : Bool)
  | trimEnd (longest : Bool)
  | unknown
  deriving DecidableEq

inductive RedirectionKind where
  | read
  | readWrite
  | write
  | writeOver
  | append
  | copyInput
  | copyOutput
  /-- The here-document with a number. -/
  | document (number : Nat)
  deriving DecidableEq

mutual

inductive Piece where
  | text (cs : Octets) (isQuoted : Bool)
  /-- Quotes that may hold nothing, but make a field. -/
  | mark
  | parameter (name : Octets) (alteration : Alteration) (emptyIsMissing : Bool)
      (argument : List Piece) (isQuoted : Bool)
  | arithmetic (expression : List Piece) (isQuoted : Bool)
  | command (body : List Command) (isQuoted : Bool)

inductive Redirection where
  | mk (descriptor : Nat) (kind : RedirectionKind) (target : List Piece)

inductive Command where
  | simple (line : Nat) (assignments words : List (List Piece)) (redirections : List Redirection)
  | pipeline (stages : List Command)
  | subshell (line : Nat) (body : List Command) (redirections : List Redirection)
  | background (line : Nat) (command : Command)
  | group (body : List Command)
  | redirected (line : Nat) (command : Command) (redirections : List Redirection)
  | negated (command : Command)
  | both (first second : Command)
  | either (first second : Command)
  | conditional (condition body otherwise : List Command)
  | loop (isUntil : Bool) (condition body : List Command)
  | each (line : Nat) (name : Octets) (words : List (List Piece)) (body : List Command)
  | choice (line : Nat) (subject : List Piece) (cases : List (List (List Piece) × List Command))
  | define (name : Octets) (body : Command)

end

abbrev Word := List Piece

namespace Word

def isNameStart (c : Char) : Bool :=
  c.isAlpha || c = '_'

def isNameChar (c : Char) : Bool :=
  c.isAlphanum || c = '_'

def isName (cs : Octets) : Bool :=
  match cs with
  | c :: rest => isNameStart c && rest.all isNameChar
  | [] => false

def plain? (w : Word) : Option Octets :=
  match w with
  | [.text cs false] => some cs
  | [] => some []
  | _ => none

/-- The name a word assigns to, if it is an assignment, and the word for the value. -/
def assignment? (w : Word) : Option (Octets × Word) :=
  match w with
  | .text cs false :: rest =>
    let name := cs.takeWhile isNameChar
    match cs.drop name.length with
    | '=' :: value => if isName name then some (name, .text value false :: rest) else none
    | _ => none
  | _ => none

def literal (w : Word) : Octets :=
  w.flatMap fun piece =>
    match piece with
    | .text cs _ => cs
    | _ => []

def pushChar (isQuoted : Bool) (c : Char) (reversed : List Piece) : List Piece :=
  match reversed with
  | .text cs quoted :: rest =>
    if quoted = isQuoted then .text (c :: cs) quoted :: rest else .text [c] isQuoted :: reversed
  | _ => .text [c] isQuoted :: reversed

/-- The pieces of a word from those in reverse order, whose texts are in reverse order too. -/
def ofReversed (reversed : List Piece) : Word :=
  reversed.foldl (fun w piece =>
    match piece with
    | .text cs isQuoted => .text cs.reverse isQuoted :: w
    | piece => piece :: w) []

end Word

/-- The commands that change the shell itself; no function may have their name. -/
def specialCommands : List String :=
  [".", ":", "break", "continue", "eval", "exec", "exit", "export", "local", "readonly", "return",
    "set", "shift", "trap", "unset"]

end Diaporama.Rehearsal
