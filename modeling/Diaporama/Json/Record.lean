import Diaporama.Json.Reader

/-!
# Records

A record is read from an object, whose members come in any order and whose unknown members are
skipped, or from a list of its fields in order. The values read so far make up a draft; the end of
the text turns it into the record or reports the first required field that is missing.
-/

namespace Diaporama.Json

/-- One field of a record with drafts in `σ`. -/
structure RecordField (σ : Type) where
  name : String
  /-- Another name that counts as this field. -/
  aliases : List String
  /-- A list of fields may not end before a required one. -/
  isRequired : Bool
  isGiven : σ → Bool
  read : σ → Reader σ

structure Record (σ α : Type) where
  name : String
  fields : List (RecordField σ)
  draft : σ
  finish : σ → Except Fault α

def require {α : Type} (name : String) : Option α → Except Fault α
  | some a => .ok a
  | none => .error (.missingField name)

namespace RecordField

variable {σ : Type}

def answersTo (f : RecordField σ) (key : String) : Bool :=
  key = f.name || f.aliases.contains key

/-- A field whose value is kept by `put` once it is read. -/
def of {β : Type} (name : String) (aliases : List String) (isRequired : Bool) (r : Reader β)
    (get : σ → Option β) (put : σ → β → σ) : RecordField σ where
  name := name
  aliases := aliases
  isRequired := isRequired
  isGiven s := (get s).isSome
  read s := return put s (← r)

end RecordField

namespace Record

variable {σ α : Type}

def ofExcept : Except Fault α → Reader α
  | .ok a => pure a
  | .error fault => throw fault

def field? (shape : Record σ α) (key : String) : Option (RecordField σ) :=
  shape.fields.find? (·.answersTo key)

def members (shape : Record σ α) (first : Bool) (s : σ) : Nat → Reader σ
  | 0 => Reader.fail .endInObject
  | limit + 1 => do
    if ← Reader.hasMember first then
      let key ← Reader.key
      match shape.field? key with
      | some f =>
        if f.isGiven s then throw (.repeatedField f.name)
        Reader.colon
        shape.members false (← f.read s) limit
      | none =>
        Reader.colon
        Reader.skipping skipValue
        shape.members false s limit
    else return s

def positions (shape : Record σ α) (s : σ) (i : Nat) : List (RecordField σ) → Reader σ
  | [] => return s
  | f :: fs => do
    if ← Reader.hasItem (i == 0) then
      shape.positions (← f.read s) (i + 1) fs
    else if f.isRequired then
      throw (.tooShort i shape.name shape.fields.length)
    else shape.positions s (i + 1) fs

def reader (shape : Record σ α) : Reader α := do
  let c ← Reader.start
  if c = '[' then
    Reader.skip
    let s ← shape.positions shape.draft 0 shape.fields
    Reader.closeList
    ofExcept (shape.finish s)
  else if c = '{' then
    Reader.skip
    let s ← shape.members true shape.draft ((← Reader.rest).length + 1)
    let a ← ofExcept (shape.finish s)
    Reader.skip
    return a
  else Reader.refuse ("struct " ++ shape.name) c

end Record

end Diaporama.Json
