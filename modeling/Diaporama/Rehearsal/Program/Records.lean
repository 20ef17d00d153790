import Diaporama.Rehearsal.Format
import Diaporama.Rehearsal.Program.Lines
import Diaporama.Rehearsal.Regex

/-!
# Programs for records

A program for records says what is done with each line of a text: rules with a condition and
statements. A value is a number or a text; a text that comes from outside and looks like a number
counts as one where values are compared.
-/

namespace Diaporama.Rehearsal.Records

/-! ## Values -/

inductive Value where
  | number (x : Float)
  | text (cs : Octets) (isInput : Bool)

namespace Value

/-- What was never set is both nought and the empty text. -/
def unset : Value := .text [] true

def ofBool (b : Bool) : Value := .number (if b then 1 else 0)

def ofNat (n : Nat) : Value := .number n.toFloat

def asNumber (v : Value) : Float :=
  match v with
  | .number x => x
  | .text cs _ => ((Format.realAt? cs).map (·.1)).getD 0

def numeric? (v : Value) : Option Float :=
  match v with
  | .number x => some x
  | .text [] true => some 0
  | .text cs true =>
    (Format.realAt? cs).bind fun (x, rest) => if rest.all Octets.isSpace then some x else none
  | .text _ false => none

/-- A number is written with as many of six decimals as it needs. -/
def asText (v : Value) : Octets :=
  match v with
  | .text cs _ => cs
  | .number x =>
    let shown := (Format.Directive.mk [] 0 none 'f').real x
    if shown.contains '.' then
      Octets.dropEndWhile (· = '.') (Octets.dropEndWhile (· = '0') shown)
    else shown

def isTrue (v : Value) : Bool :=
  match v.numeric? with
  | some x => x != 0
  | none => !v.asText.isEmpty

/-- The order of two values: as numbers if both count as numbers. -/
def order (a b : Value) : Ordering :=
  match a.numeric?, b.numeric? with
  | some x, some y => if x < y then .lt else if y < x then .gt else .eq
  | _, _ => Octets.order a.asText b.asText

end Value

inductive Expr where
  | value (v : Value)
  | regex (r : Regex)
  | variable (name : String)
  | field (e : Expr)
  /-- Gives a place a value; the value is the one from before if `isAfter` is set. -/
  | assign (place e : Expr) (isAfter : Bool)
  | binary (sign : String) (a b : Expr)
  | no (e : Expr)
  | call (name : String) (arguments : List Expr)

inductive Statement where
  | expr (e : Expr)
  | print (es : List Expr)
  | format (es : List Expr)
  | block (ss : List Statement)
  | choose (c : Expr) (a b : Statement)
  | loop (c : Expr) (s step : Statement)
  | next
  | exit (e : Expr)

inductive Condition where
  | start
  | stop
  | when (e : Expr)

structure Rule where
  condition : Condition
  body : Statement

/-! ## Tokens -/

inductive Token where
  | value (v : Value)
  | regex (r : Regex)
  | name (s : String)
  | sign (s : String)
  deriving Inhabited

def signs : List String :=
  ["&&", "||", "==", "!=", "<=", ">=", "!~", "+=", "-=", "*=", "/=", "++", "--", "=", "<", ">", "~", "!",
    "+", "-", "*", "/", "%", "$", "(", ")", "\x7b", "\x7d", ",", ";", "\n"]

/-- The text up to a mark, escapes replaced if `replaces` is set, and what is behind the mark. -/
def upTo (mark : Char) (replaces : Bool) : Nat → Octets → Octets × Octets
  | 0, _ | _ + 1, [] => ([], [])
  | fuel + 1, c :: cs =>
    if c = mark then ([], cs)
    else
      let (here, rest) := match c, cs with
        | '\\', d :: rest =>
          if !replaces then (if d = mark then [d] else ['\\', d], rest)
          else if d = mark then ([d], rest)
          else
            let (found, rest) := Format.escapeAt (d :: rest)
            ([found], rest)
        | c, cs => ([c], cs)
      let (more, rest) := upTo mark replaces fuel rest
      (here ++ more, rest)

/-- The tokens of a text; `isValue` tells that the last one ends a value, behind which a slash divides. -/
def tokens : Nat → Bool → Octets → Except String (List Token)
  | 0, _, _ | _ + 1, _, [] => .ok []
  | fuel + 1, isValue, c :: cs =>
    if Octets.isBlank c then tokens fuel isValue cs
    else if c = '#' then tokens fuel false (cs.dropWhile (· ≠ '\n'))
    else if c = '"' then do
      let (text, rest) := upTo '"' true fuel cs
      return .value (.text text false) :: (← tokens fuel true rest)
    else if c = '/' && !isValue then do
      let (text, rest) := upTo '/' false fuel cs
      return .regex (← Regex.ofText true false text) :: (← tokens fuel true rest)
    else if c.isDigit || c = '.' then
      match Format.realAt? (c :: cs) with
      | some (x, rest) => do return .value (.number x) :: (← tokens fuel true rest)
      | none => .error "syntax error"
    else if c.isAlpha || c = '_' then do
      let name := (c :: cs).takeWhile fun c => c.isAlphanum || c = '_'
      return .name (String.ofList name) :: (← tokens fuel true (cs.drop (name.length - 1)))
    else match signs.find? fun sign => sign.toList.isPrefixOf (c :: cs) with
      | some sign => do
        return .sign sign :: (← tokens fuel (sign = ")" || sign = "$") (cs.drop (sign.length - 1)))
      | none => .error "syntax error"

/-! ## Reading -/

abbrev Reading := StateT (List Token) (Except String)

namespace Reading

def wrong {α : Type} : Reading α :=
  throw "syntax error"

def peek? : Reading (Option Token) := do
  return (← get).head?

def skip : Reading Unit :=
  modify (·.drop 1)

def takes (sign : String) : Reading Bool := do
  match ← peek? with
  | some (.sign s) =>
    if s = sign then
      skip
      return true
    else return false
  | _ => return false

def expect (sign : String) : Reading Unit := do
  if !(← takes sign) then wrong

def separators : Reading Unit :=
  modify (·.dropWhile fun t => t matches .sign ";" | .sign "\n")

/-- The operators between two operands, those that bind least first. An empty sign puts texts
together. -/
def levels : List (List String) :=
  [["||"], ["&&"], ["~", "!~"], ["<", "<=", "==", "!=", ">", ">="], [""], ["+", "-"], ["*", "/", "%"]]

/-- The sign among some that comes next; an operand that follows stands for the empty one. -/
def operator? (allowed : List String) : Reading (Option String) := do
  match ← peek? with
  | some (.sign s) =>
    if allowed.contains s then
      skip
      return some s
    else return if allowed = [""] && ["$", "!", "("].contains s then some "" else none
  | some (.name "in") | none => return none
  | some _ => return if allowed = [""] then some "" else none

def assignment? : Reading (Option String) := do
  match ← peek? with
  | some (.sign s) =>
    if ["=", "+=", "-=", "*=", "/="].contains s then
      skip
      return some (String.ofList s.toList.dropLast)
    else return none
  | _ => return none

def step? : Reading (Option String) := do
  match ← peek? with
  | some (.sign "++") => skip; return some "+"
  | some (.sign "--") => skip; return some "-"
  | _ => return none

def stepped (sign : String) (place : Expr) : Expr :=
  .binary sign place (.value (.number 1))

mutual

def expr : Nat → Reading Expr
  | 0 => wrong
  | fuel + 1 => do
    let e ← level fuel levels
    match e, ← assignment? with
    | .variable _, some "" | .field _, some "" => return .assign e (← expr fuel) false
    | .variable _, some op | .field _, some op =>
      return .assign e (.binary op e (← expr fuel)) false
    | _, some _ => wrong
    | _, none => return e

def level : Nat → List (List String) → Reading Expr
  | 0, _ => wrong
  | fuel + 1, [] => single fuel
  | fuel + 1, signs :: tighter => do further fuel signs tighter (← level fuel tighter)

def further : Nat → List String → List (List String) → Expr → Reading Expr
  | 0, _, _, _ => wrong
  | fuel + 1, signs, tighter, e => do
    match ← operator? signs with
    | some sign => further fuel signs tighter (.binary sign e (← level fuel tighter))
    | none => return e

def single : Nat → Reading Expr
  | 0 => wrong
  | fuel + 1 => do
    if let some sign ← step? then
      let place ← single fuel
      return .assign place (stepped sign place) false
    match ← peek? with
    | some (.value v) => skip; return .value v
    | some (.regex r) => skip; return .regex r
    | some (.sign "!") => skip; return .no (← single fuel)
    | some (.sign "-") => skip; return .binary "-" (.value (.number 0)) (← single fuel)
    | some (.sign "(") =>
      skip
      let e ← expr fuel
      expect ")"
      return e
    | some (.sign "$") =>
      skip
      after (.field (← operand fuel))
    | some (.name name) =>
      skip
      if ["length", "substr", "index", "toupper", "tolower"].contains name then
        if ← takes "(" then
          let es ← list fuel
          expect ")"
          return .call name es
        else return .call name []
      else after (.variable name)
    | _ => wrong

def operand : Nat → Reading Expr
  | 0 => wrong
  | fuel + 1 => do
    match ← peek? with
    | some (.name name) => skip; return .variable name
    | _ => single fuel

def after (place : Expr) : Reading Expr := do
  match ← step? with
  | some sign => return .assign place (stepped sign place) true
  | none => return place

def list : Nat → Reading (List Expr)
  | 0 => wrong
  | fuel + 1 => do
    match ← peek? with
    | none | some (.sign ")") | some (.sign ";") | some (.sign "\x7d") | some (.sign "\n") => return []
    | _ =>
      let e ← expr fuel
      if ← takes "," then return e :: (← list fuel) else return [e]

end

mutual

def statement : Nat → Reading Statement
  | 0 => wrong
  | fuel + 1 => do
    separators
    match ← peek? with
    | some (.sign "\x7b") => skip; block fuel
    | some (.name "print") => skip; return .print (← list fuel)
    | some (.name "printf") => skip; return .format (← list fuel)
    | some (.name "next") => skip; return .next
    | some (.name "exit") =>
      skip
      return .exit ((← list fuel).headD (.value (.number 0)))
    | some (.name "if") =>
      skip
      let c ← condition fuel
      let a ← statement fuel
      let behind ← get
      separators
      match ← peek? with
      | some (.name "else") => skip; return .choose c a (← statement fuel)
      | _ =>
        set behind
        return .choose c a (.block [])
    | some (.name "while") =>
      skip
      let c ← condition fuel
      return .loop c (← statement fuel) (.block [])
    | some (.name "for") =>
      skip
      expect "("
      let first ← expr fuel
      expect ";"
      let c ← expr fuel
      expect ";"
      let step ← expr fuel
      expect ")"
      return .block [.expr first, .loop c (← statement fuel) (.expr step)]
    | _ => return .expr (← expr fuel)

def condition : Nat → Reading Expr
  | 0 => wrong
  | fuel + 1 => do
    expect "("
    let c ← expr fuel
    expect ")"
    return c

def block : Nat → Reading Statement
  | 0 => wrong
  | fuel + 1 => do
    separators
    if ← takes "\x7d" then return .block []
    let first ← statement fuel
    return .block [first, ← block fuel]

end

def rules : Nat → Reading (List Rule)
  | 0 => wrong
  | fuel + 1 => do
    separators
    let condition ← match ← peek? with
      | none => return []
      | some (.name "BEGIN") => do skip; pure Condition.start
      | some (.name "END") => do skip; pure .stop
      | some (.sign "\x7b") => pure (.when (.value (.number 1)))
      | some _ => do pure (.when (← expr fuel))
    let body ← if ← takes "\x7b" then block fuel else pure (.print [])
    return ⟨condition, body⟩ :: (← rules fuel)

end Reading

/-! ## Running -/

structure State where
  names : List (String × Value)
  record : Octets
  fields : List Octets
  /-- What was printed, the last text first. -/
  output : List Octets

inductive Leave where
  | next
  | exit (status : Nat)

abbrev Running := ExceptT Leave (StateM State)

namespace Running

def valueOf (name : String) : Running Value := do
  let s ← get
  if name = "NF" then return .ofNat s.fields.length
  return (s.names.lookup name).getD .unset

def setVariable (name : String) (v : Value) : Running Unit :=
  modify fun s =>
    { s with names := (name, v) :: s.names.filter fun entry => entry.1 ≠ name }

def fieldsOf (separator record : Octets) : List Octets :=
  match separator with
  | [' '] => Octets.words record
  | [c] => if record.isEmpty then [] else Octets.split c record
  | separator =>
    match Regex.ofText true false separator with
    | .error _ => [record]
    | .ok r =>
      let s := record.toArray
      let rec parts : Nat → Nat → List Octets
        | 0, _ => []
        | fuel + 1, i =>
          match r.find? s i with
          | none => [(s.extract i s.size).toList]
          | some m => (s.extract i m.start).toList :: parts fuel (max m.stop (i + 1))
      if record.isEmpty then [] else parts (s.size + 1) 0

def setRecord (record : Octets) : Running Unit := do
  let separator := (← valueOf "FS").asText
  modify fun s => { s with record, fields := fieldsOf separator record }

def fits (isNegated : Bool) (text pattern : Octets) : Value :=
  match Regex.ofText true false pattern with
  | .ok r => .ofBool ((r.find? text.toArray 0).isSome != isNegated)
  | .error _ => .ofBool false

def arithmetic (sign : String) (a b : Value) : Value :=
  let x := a.asNumber
  let y := b.asNumber
  match sign with
  | "+" => .number (x + y)
  | "-" => .number (x - y)
  | "*" => .number (x * y)
  | "/" => .number (x / y)
  | _ => .number (x - y * (x / y).floor)

def compared (sign : String) (a b : Value) : Bool :=
  let order := a.order b
  match sign with
  | "<" => order = .lt
  | "<=" => order ≠ .gt
  | "==" => order = .eq
  | "!=" => order ≠ .eq
  | ">" => order = .gt
  | _ => order ≠ .lt

def called (name : String) (record : Octets) (vs : List Value) : Value :=
  let text := (vs.head?.map Value.asText).getD record
  match name, vs.drop 1 with
  | "length", _ => .ofNat text.length
  | "toupper", _ => .text (text.map Char.toUpper) false
  | "tolower", _ => .text (text.map Char.toLower) false
  | "index", part :: _ => .ofNat (((Octets.position? part.asText text).map (· + 1)).getD 0)
  | "substr", first :: rest =>
    let tail := text.drop (first.asNumber.toUInt64.toNat - 1)
    .text (match rest with
      | length :: _ => tail.take length.asNumber.toUInt64.toNat
      | [] => tail) false
  | _, _ => .unset

def evaluate : Expr → Running Value
  | .value v => return v
  | .regex r => return .ofBool (r.find? (← get).record.toArray 0).isSome
  | .variable name => valueOf name
  | .field e => do
    let n := (← evaluate e).asNumber.toUInt64.toNat
    let s ← get
    return .text (if n = 0 then s.record else (s.fields[n - 1]?).getD []) true
  | .assign place e isAfter => do
    let before ← evaluate place
    let v ← evaluate e
    match place with
    | .field index =>
      let n := (← evaluate index).asNumber.toUInt64.toNat
      if n = 0 then setRecord v.asText
      else
        let joint := (← valueOf "OFS").asText
        modify fun s =>
          let padded := s.fields ++ List.replicate (n - s.fields.length) []
          let fields := padded.set (n - 1) v.asText
          { s with fields, record := joint.intercalate fields }
    | .variable name => setVariable name v
    | _ => pure ()
    return if isAfter then .number before.asNumber else v
  | .no e => return .ofBool !(← evaluate e).isTrue
  | .call name [] => return called name (← get).record []
  | .call name (e :: es) => do
    let first ← evaluate e
    return called name [] (first :: (← evaluateAll es))
  | .binary "&&" a b => do
    if (← evaluate a).isTrue then return .ofBool (← evaluate b).isTrue else return .ofBool false
  | .binary "||" a b => do
    if (← evaluate a).isTrue then return .ofBool true else return .ofBool (← evaluate b).isTrue
  | .binary sign a b => do
    let v ← evaluate a
    match sign, b with
    | "~", .regex r => return .ofBool (r.find? v.asText.toArray 0).isSome
    | "!~", .regex r => return .ofBool (r.find? v.asText.toArray 0).isNone
    | _, _ =>
      let w ← evaluate b
      if sign = "" then return .text (v.asText ++ w.asText) false
      else if sign = "~" || sign = "!~" then return fits (sign = "!~") v.asText w.asText
      else if ["+", "-", "*", "/", "%"].contains sign then return arithmetic sign v w
      else return .ofBool (compared sign v w)
where
  evaluateAll : List Expr → Running (List Value)
    | [] => return []
    | e :: es => do
      let v ← evaluate e
      return v :: (← evaluateAll es)

def put (text : Octets) : Running Unit :=
  modify fun s => { s with output := text :: s.output }

def execute : Nat → Statement → Running Unit
  | 0, _ => throw (.exit 2)
  | fuel + 1, s => do
    match s with
    | .expr e => discard (evaluate e)
    | .print es =>
      let texts := (← es.mapM evaluate).map Value.asText
      let joint := (← valueOf "OFS").asText
      let record := (← get).record
      put ((if es.isEmpty then record else joint.intercalate texts) ++ (← valueOf "ORS").asText)
    | .format es =>
      match (← es.mapM evaluate).map Value.asText with
      | [] => return
      | format :: words =>
        let (_, made) := (Format.Printer.once (format.length + 1) format).run.run ⟨words, [], [], false⟩
        put made.texts.reverse.flatten
    | .block ss => for s in ss do execute fuel s
    | .choose c a b => if (← evaluate c).isTrue then execute fuel a else execute fuel b
    | .loop c body step =>
      if (← evaluate c).isTrue then
        execute fuel body
        execute fuel step
        execute fuel s
    | .next => throw .next
    | .exit e => throw (.exit (← evaluate e).asNumber.toUInt64.toNat)

def maxDepth : Nat := 100000

/-- Runs the rules with a condition that holds, until one of them goes on to the next record. -/
def runRules (holds : Condition → Running Bool) (rs : List Rule) : Running Unit := do
  let run : Running Unit := do
    for r in rs do
      if ← holds r.condition then execute maxDepth r.body
  let s ← get
  match (run.run.run s) with
  | (.error .next, s) => set s
  | (.ok (), s) => set s
  | (.error leave, s) =>
    set s
    throw leave

def runAll (rs : List Rule) (lines : List Octets) : Running Unit := do
  runRules (fun c => return c matches .start) rs
  for (line, i) in lines.zipIdx do
    setVariable "NR" (.ofNat (i + 1))
    setRecord line
    runRules (fun c => match c with
      | .when e => return (← evaluate e).isTrue
      | _ => return false) rs
  runRules (fun c => return c matches .stop) rs

end Running

end Diaporama.Rehearsal.Records

namespace Diaporama.Rehearsal.Program

open Tool

def awk : Program := fun _ words => do
  let o ← match Options.ofWords ⟨[], ['F', 'v'], false⟩ words with
    | .ok o => pure o
    | .error problem => abort 2 problem
  match o.operands with
  | [] => abort 2 "usage: awk [-F fs][-v var=value] program [file ...]"
  | source :: files =>
    let read : Except String (List Records.Rule) := do
      let ts ← Records.tokens (source.length + 1) false source
      return (← (Records.Reading.rules (40 * ts.length + 40)).run ts).1
    match read with
    | .error problem => abort 2 problem
    | .ok rules =>
      let separator := match o.value? 'F' with
        | some ['t'] => ['\t']
        | some text => if text = "\\t".toList then ['\t'] else text
        | none => [' ']
      let settings := (o.values 'v').map fun (w : Octets) =>
        (String.ofList (w.takeWhile (· ≠ '=')), Records.Value.text ((w.dropWhile (· ≠ '=')).drop 1) true)
      let texts : List (String × Octets) := [("FS", separator), ("OFS", [' ']), ("ORS", ['\n'])]
      let names := settings ++ texts.map fun (name, text) => (name, .text text false)
      let mut lines : List Octets := []
      for file in if files.isEmpty then [['-']] else files do
        match ← readOperand file with
        | .ok text => lines := lines ++ Octets.lines text
        | .error fault => fail 2 ("cannot open " ++ String.ofList file ++ ": " ++ fault.description)
      let (result, s) := (Records.Running.runAll rules lines).run.run ⟨names, [], [], []⟩
      print s.output.reverse.flatten
      if let .error (.exit status) := result then setStatus status

end Diaporama.Rehearsal.Program
