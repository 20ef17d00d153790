import Diaporama.Rehearsal.Octets

/-!
# Regular expressions

An expression matches parts of a text. It is matched as early as possible, and there as long as
possible: first all ends of a match are found, then the groups are read off one way to the last end.
The signs of an expression are told apart before it is put together, so that it makes no difference
which of them need a backslash.
-/

namespace Diaporama.Rehearsal

inductive Regex where
  | empty
  | char (accepts : Char → Bool)
  | start
  | stop
  | group (number : Nat) (r : Regex)
  | seq (first second : Regex)
  | either (first second : Regex)
  | repeated (r : Regex) (least : Nat) (most : Option Nat)

abbrev Groups := List (Nat × Nat × Nat)

structure Match where
  start : Nat
  stop : Nat
  groups : Groups

def Match.group (m : Match) (s : Array Char) (n : Nat) : Octets :=
  match if n = 0 then some (m.start, m.stop) else m.groups.lookup n with
  | some (i, j) => (s.extract i j).toList
  | none => []

namespace Regex

/-! ## Matching -/

/-- The places reached by taking a step again and again, from those of the last round. -/
def closure (step : List Nat → List Nat) : Nat → List Nat → List Nat → List Nat
  | 0, found, _ => found
  | fuel + 1, found, last =>
    let new := (step last).filter (!found.contains ·)
    if new.isEmpty then found else closure step fuel (found ++ new) new

def within (step : List Nat → List Nat) : Nat → List Nat → List Nat
  | 0, places => places
  | n + 1, places => (places ++ within step n (step places)).eraseDups

def times (step : List Nat → List Nat) : Nat → List Nat → List Nat
  | 0, places => places
  | n + 1, places => times step n (step places)

def ends (s : Array Char) : Regex → List Nat → List Nat
  | empty, places => places
  | char accepts, places => (places.filter fun i => s[i]?.any accepts).map (· + 1)
  | start, places => places.filter (· = 0)
  | stop, places => places.filter (· = s.size)
  | group _ r, places => r.ends s places
  | seq a b, places => b.ends s (a.ends s places)
  | either a b, places => (a.ends s places ++ b.ends s places).eraseDups
  | repeated r least most, places =>
    let first := times (r.ends s) least places
    match most with
    | none => closure (r.ends s) (s.size + 1) first first
    | some n => within (r.ends s) (n - least) first

/-- Matches from a place on, and then whatever `next` asks for; of several ways the one that takes
more comes first. -/
def trace (s : Array Char) :
    Nat → Regex → Nat → Groups → (Nat → Groups → Option Groups) → Option Groups
  | 0, _, _, _, _ => none
  | fuel + 1, r, i, groups, next =>
    match r with
    | empty => next i groups
    | char accepts => if s[i]?.any accepts then next (i + 1) groups else none
    | start => if i = 0 then next i groups else none
    | stop => if i = s.size then next i groups else none
    | group n r => trace s fuel r i groups fun j groups => next j ((n, i, j) :: groups)
    | seq a b => trace s fuel a i groups fun j groups => trace s fuel b j groups next
    | either a b => (trace s fuel a i groups next).or (trace s fuel b i groups next)
    | repeated r least most =>
      let further := if most = some 0 then none else trace s fuel r i groups fun j groups =>
        if j = i && least = 0 then none
        else trace s fuel (repeated r (least - 1) (most.map (· - 1))) j groups next
      further.or (if least = 0 then next i groups else none)

def traceFuel (s : Array Char) : Nat :=
  8 * s.size + 1000

def matchAt? (r : Regex) (s : Array Char) (i : Nat) : Option Match :=
  (r.ends s [i]).max?.map fun stop =>
    let groups := r.trace s (traceFuel s) i [] fun j groups => if j = stop then some groups else none
    ⟨i, stop, groups.getD []⟩

def find? (r : Regex) (s : Array Char) (i : Nat) : Option Match :=
  ((List.range (s.size + 1)).drop i).findSome? (r.matchAt? s)

/-! ## Signs -/

inductive Sign where
  | char (accepts : Char → Bool)
  | start
  | stop
  | opening
  | closing
  | bar
  | repeated (least : Nat) (most : Option Nat)

/-- What an escaped letter stands for; other characters stand for themselves. -/
def escaped (c : Char) : Sign :=
  match c with
  | 'n' => .char (· = '\n')
  | 't' => .char (· = '\t')
  | 's' => .char Octets.isSpace
  | 'S' => .char (!Octets.isSpace ·)
  | 'w' => .char (Octets.isInClass "word")
  | c => .char (· = c)

/-- The bounds behind an opening brace, which a closing one or one behind a backslash ends. -/
def bounds (isExtended : Bool) (cs : Octets) : Except String (Sign × Octets) :=
  let inner := cs.takeWhile fun c => c.isDigit || c = ','
  let least := inner.takeWhile Char.isDigit
  let rest := cs.drop inner.length
  let most := match inner.drop least.length with
    | [] => Octets.number? least
    | _ :: most => Octets.number? most
  let sign := Sign.repeated (Octets.number least) most
  match if isExtended then rest else rest.drop 1 with
  | '\x7d' :: rest => .ok (sign, rest)
  | _ => .error "Invalid preceding regular expression"

/-- The members of a set up to its closing bracket, which counts as a member at the start. -/
def members : Nat → Bool → Octets → Except String ((Char → Bool) × Octets)
  | 0, _, _ | _ + 1, _, [] => .error "Unmatched [, [^, [:, [., or [="
  | fuel + 1, isFirst, cs =>
    let put (accepts : Char → Bool) (rest : Octets) : Except String ((Char → Bool) × Octets) :=
      (members fuel false rest).map fun (others, rest) => (fun c => accepts c || others c, rest)
    match isFirst, cs with
    | false, ']' :: rest => .ok (fun _ => false, rest)
    | _, '[' :: ':' :: rest =>
      let name := rest.takeWhile (· ≠ ':')
      put (Octets.isInClass (String.ofList name)) (rest.drop (name.length + 2))
    | _, low :: '-' :: high :: rest =>
      if high = ']' then put (· = low) ('-' :: high :: rest)
      else put (fun c => low ≤ c && c ≤ high) rest
    | _, c :: rest => put (· = c) rest
    | _, [] => .error "Unmatched [, [^, [:, [., or [="

def isOpen : Option Sign → Bool
  | none | some .opening | some .bar => true
  | _ => false

/-- The signs of an expression; `last` is the one before. Unless it is an extended one, most of them are
behind a backslash, and edges count only where they can be. -/
def signs (isExtended : Bool) : Nat → Option Sign → Octets → Except String (List Sign)
  | 0, _, _ => .ok []
  | _ + 1, _, [] => .ok []
  | fuel + 1, last, c :: cs =>
    let put (sign : Sign) (rest : Octets) : Except String (List Sign) :=
      (signs isExtended fuel (some sign) rest).map (sign :: ·)
    let special (c : Char) (rest : Octets) (usual : Sign) : Except String (List Sign) :=
      match c with
      | '(' => put .opening rest
      | ')' => put .closing rest
      | '|' => put .bar rest
      | '+' => put (.repeated 1 none) rest
      | '?' => put (.repeated 0 (some 1)) rest
      | '\x7b' => do
        let (sign, rest) ← bounds isExtended rest
        put sign rest
      | _ => put usual rest
    match c, cs with
    | '\\', [] => .error "Trailing backslash"
    | '\\', d :: rest => if isExtended then put (escaped d) rest else special d rest (escaped d)
    | '.', rest => put (.char fun _ => true) rest
    | '[', rest => do
      let isNegated := rest.head? = some '^'
      let (accepts, rest) ← members fuel true (if isNegated then rest.drop 1 else rest)
      put (.char fun c => accepts c != isNegated) rest
    | '*', rest =>
      let isPlain := isOpen last || !isExtended && last matches some .start
      put (if isPlain then .char (· = '*') else .repeated 0 none) rest
    | '^', rest => put (if isExtended || isOpen last then .start else .char (· = '^')) rest
    | '$', rest =>
      let isLast := rest.isEmpty || "\\)".toList.isPrefixOf rest || "\\|".toList.isPrefixOf rest
      put (if isExtended || isLast then .stop else .char (· = '$')) rest
    | c, rest => if isExtended then special c rest (.char (· = c)) else put (.char (· = c)) rest

/-! ## Putting together -/

/-- A group that is not closed yet: its alternatives so far, and the parts of the one that is read, the
last one first. -/
structure Frame where
  number : Nat
  before : Option Regex
  parts : List Regex

def Frame.whole (f : Frame) : Regex :=
  let last := f.parts.foldl (fun r part => .seq part r) .empty
  match f.before with
  | some r => .either r last
  | none => last

/-- The open groups, the inmost one first, and the number of all groups so far. -/
abbrev Building := List Frame × Nat

def build : Building → Sign → Except String Building
  | ([], _), _ => .error "Unmatched ) or \\)"
  | (f :: outer, count), sign =>
    let put (r : Regex) : Except String Building := .ok ({ f with parts := r :: f.parts } :: outer, count)
    match sign with
    | .char accepts => put (.char accepts)
    | .start => put .start
    | .stop => put .stop
    | .bar => .ok (⟨f.number, some f.whole, []⟩ :: outer, count)
    | .opening => .ok (⟨count + 1, none, []⟩ :: f :: outer, count + 1)
    | .closing =>
      match outer with
      | g :: outer => .ok ({ g with parts := .group f.number f.whole :: g.parts } :: outer, count)
      | [] => .error "Unmatched ) or \\)"
    | .repeated least most =>
      match f.parts with
      | part :: parts =>
        .ok ({ f with parts := .repeated part least most :: parts } :: outer, count)
      | [] => .error "Invalid preceding regular expression"

def uncased : Regex → Regex
  | char accepts => char fun c => accepts c || accepts c.toLower || accepts c.toUpper
  | group n r => group n r.uncased
  | seq a b => seq a.uncased b.uncased
  | either a b => either a.uncased b.uncased
  | repeated r least most => repeated r.uncased least most
  | r => r

def ofText (isExtended ignoresCase : Bool) (text : Octets) : Except String Regex := do
  match ← (← signs isExtended (text.length + 1) none text).foldlM build ([⟨0, none, []⟩], 0) with
  | ([f], _) => return if ignoresCase then f.whole.uncased else f.whole
  | _ => throw "Unmatched ( or \\("

def literally (text : Octets) : Regex :=
  text.foldr (fun c r => .seq (.char (· = c)) r) .empty

end Regex

end Diaporama.Rehearsal
