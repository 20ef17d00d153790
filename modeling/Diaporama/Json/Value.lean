import Diaporama.Json.Fault

/-!
# JSON values and their text

Values are written over several lines, two blanks deeper for each level. Members stand in the order
they are given; `sorted` puts them in the order of their names. A number that is not finite has no
JSON form and is written `null`.
-/

namespace Diaporama.Json

inductive Value where
  | null
  | boolean (value : Bool)
  | natural (value : Nat)
  | real (value : Float)
  | string (value : String)
  | list (items : List Value)
  | object (members : List (String × Value))

def escapeChar (c : Char) : String :=
  if c = '"' then "\\\""
  else if c = '\\' then "\\\\"
  else if c = '\n' then "\\n"
  else if c = '\r' then "\\r"
  else if c = '\t' then "\\t"
  else if c.toNat = 8 then "\\b"
  else if c.toNat = 12 then "\\f"
  else if c.toNat < 16 then "\\u000" ++ Text.hex c.toNat
  else if c.toNat < 32 then "\\u00" ++ Text.hex c.toNat
  else c.toString

def stringText (s : String) : String :=
  "\"" ++ String.join (s.toList.map escapeChar) ++ "\""

def realText (x : Float) : String :=
  if x.isFinite then numberLayout.text x else "null"

namespace Value

def ofOption {α : Type} (f : α → Value) : Option α → Value
  | some a => f a
  | none => null

mutual

def sorted : Value → Value
  | list items => list (sortedItems items)
  | object members => object ((sortedMembers members).mergeSort fun a b => decide (a.1 ≤ b.1))
  | value => value

def sortedItems : List Value → List Value
  | [] => []
  | item :: items => item.sorted :: sortedItems items

def sortedMembers : List (String × Value) → List (String × Value)
  | [] => []
  | (name, value) :: members => (name, value.sorted) :: sortedMembers members

end

def newline (level : Nat) : String :=
  String.ofList ('\n' :: List.replicate (2 * level) ' ')

def bracketed (opening closing : String) (level : Nat) : List String → String
  | [] => opening ++ closing
  | parts =>
    opening ++ newline (level + 1) ++ ("," ++ newline (level + 1)).intercalate parts ++
      newline level ++ closing

mutual

def pretty (level : Nat) : Value → String
  | null => "null"
  | boolean value => if value then "true" else "false"
  | natural value => toString value
  | real value => realText value
  | string value => stringText value
  | list items => bracketed "[" "]" level (prettyItems (level + 1) items)
  | object members => bracketed "\x7b" "\x7d" level (prettyMembers (level + 1) members)

def prettyItems (level : Nat) : List Value → List String
  | [] => []
  | item :: items => item.pretty level :: prettyItems level items

def prettyMembers (level : Nat) : List (String × Value) → List String
  | [] => []
  | (name, value) :: members =>
    (stringText name ++ ": " ++ value.pretty level) :: prettyMembers level members

end

end Value

end Diaporama.Json
