import Diaporama.Decimal.Numeral
import Diaporama.FilePath

/-!
# The command line

A command line names a command and its flags. A flag takes its value from behind an equals sign or
from the next argument, which then may not look like a flag; every flag but `--image` is given at
most once; a path is not empty; and `--request` stands for all flags that describe a slideshow. What
breaks one of these rules is not a command line.
-/

namespace Diaporama.CommandLine

inductive OutputFormat where
  | shell
  | args
  | json
  | graph
  deriving DecidableEq, Repr

def OutputFormat.ofName? (s : String) : Option OutputFormat :=
  [("shell", .shell), ("args", .args), ("json", .json), ("graph", .graph)].lookup s

inductive CommandName where
  | compile
  | render
  deriving DecidableEq, Repr

def CommandName.ofText? (arg : ByteArray) : Option CommandName :=
  match String.fromUTF8? arg with
  | some "compile" => some .compile
  | some "render" => some .render
  | _ => none

inductive Flag where
  | request
  | image
  | audio
  | transition
  | duration
  | aspect
  | out
  | config
  | format
  | ffmpeg
  | noOverwrite
  deriving DecidableEq, Repr

namespace Flag

def name : Flag → String
  | request => "request"
  | image => "image"
  | audio => "audio"
  | transition => "transition"
  | duration => "duration"
  | aspect => "aspect"
  | out => "out"
  | config => "config"
  | format => "format"
  | ffmpeg => "ffmpeg"
  | noOverwrite => "no-overwrite"

def ofCommand (c : CommandName) : List Flag :=
  [request, image, audio, transition, duration, aspect, out, config] ++
    match c with
    | .compile => [format]
    | .render => [ffmpeg, noOverwrite]

def ofName? (c : CommandName) (s : String) : Option Flag :=
  (ofCommand c).find? fun flag => flag.name == s

def takesValue (f : Flag) : Bool :=
  f != noOverwrite

end Flag

structure Flags where
  request : Option FilePath
  images : List FilePath
  audio : Option FilePath
  transition : Option String
  duration : Option Float
  aspect : Option String
  out : Option FilePath
  config : Option FilePath
  format : Option OutputFormat
  program : Option FilePath
  keepsOutput : Bool

namespace Flags

def none : Flags :=
  ⟨.none, [], .none, .none, .none, .none, .none, .none, .none, .none, false⟩

/-- A path is any bytes but none at all. -/
def path? (value : ByteArray) : Option FilePath :=
  if value.isEmpty then .none else some ⟨value⟩

def duration? (value : ByteArray) : Option Float := do
  let s ← String.fromUTF8? value
  return (← Numeral.parse? s).toFloat

def format? (value : ByteArray) : Option OutputFormat := do
  OutputFormat.ofName? (← String.fromUTF8? value)

def once {α : Type} (slot : Option α) (value : Option α) : Option (Option α) :=
  if slot.isSome then .none else value.map some

/-- The flags with one more; a second value and a value of the wrong form are refused. -/
def add (f : Flags) (flag : Flag) (value : ByteArray) : Option Flags :=
  match flag with
  | .request => (once f.request (path? value)).map fun v => { f with request := v }
  | .image => (path? value).map fun v => { f with images := f.images ++ [v] }
  | .audio => (once f.audio (path? value)).map fun v => { f with audio := v }
  | .transition =>
    (once f.transition (String.fromUTF8? value)).map fun v => { f with transition := v }
  | .duration => (once f.duration (duration? value)).map fun v => { f with duration := v }
  | .aspect => (once f.aspect (String.fromUTF8? value)).map fun v => { f with aspect := v }
  | .out => (once f.out (path? value)).map fun v => { f with out := v }
  | .config => (once f.config (path? value)).map fun v => { f with config := v }
  | .format => (once f.format (format? value)).map fun v => { f with format := v }
  | .ffmpeg => (once f.program (path? value)).map fun v => { f with program := v }
  | .noOverwrite => if f.keepsOutput then .none else some { f with keepsOutput := true }

/-- A request file and flags that describe a slideshow exclude each other. -/
def areConsistent (f : Flags) : Bool :=
  f.request.isNone || (f.images.isEmpty && f.audio.isNone && f.transition.isNone &&
    f.duration.isNone && f.aspect.isNone && f.out.isNone)

end Flags

inductive Invocation where
  | version
  | help
  | run (command : CommandName) (flags : Flags)

inductive Shape where
  /-- Two dashes: no flags follow. -/
  | stop
  /-- A flag by name, perhaps with a value behind an equals sign. -/
  | long (name : ByteArray) (value : Option ByteArray)
  /-- A flag of one letter. -/
  | short (letter : UInt8)
  | plain

def dash : UInt8 := 0x2D

def equalsSign : UInt8 := 0x3D

def shape (arg : ByteArray) : Shape :=
  match arg.toList with
  | [a, b] => if a = dash && b = dash then .stop else if a = dash then .short b else .plain
  | a :: b :: rest =>
    if a = dash && b = dash then
      let name := rest.takeWhile (· ≠ equalsSign)
      match rest.dropWhile (· ≠ equalsSign) with
      | [] => .long name.toByteArray none
      | _ :: value => .long name.toByteArray (some value.toByteArray)
    else if a = dash then .short b
    else .plain
  | _ => .plain

def letter (c : Char) : UInt8 := c.toNat.toUInt8

def flags? (c : CommandName) (f : Flags) : List ByteArray → Option Invocation
  | [] => if f.areConsistent then some (.run c f) else none
  | arg :: args =>
    match shape arg with
    | .stop => if args.isEmpty && f.areConsistent then some (.run c f) else none
    | .short l => if l = letter 'h' then some .help else none
    | .plain => none
    | .long name value =>
      match String.fromUTF8? name with
      | none => none
      | some "help" => if value.isNone then some .help else none
      | some name => do
        let flag ← Flag.ofName? c name
        match value, args with
        | some value, args =>
          if flag.takesValue then flags? c (← f.add flag value) args else none
        | none, args =>
          if !flag.takesValue then flags? c (← f.add flag .empty) args
          else match args with
            | next :: args =>
              match shape next with
              | .plain => flags? c (← f.add flag next) args
              | _ => none
            | [] => none

def parse? : List ByteArray → Option Invocation
  | [] => none
  | arg :: args =>
    match shape arg with
    | .stop => none
    | .short l =>
      if l = letter 'V' then some .version else if l = letter 'h' then some .help else none
    | .long name value =>
      if value.isSome then none
      else match String.fromUTF8? name with
        | some "version" => some .version
        | some "help" => some .help
        | _ => none
    | .plain =>
      match CommandName.ofText? arg with
      | some command => flags? command .none args
      | none =>
        if String.fromUTF8? arg = some "help" then
          match args with
          | [] => some .help
          | [topic] => if (CommandName.ofText? topic).isSome then some .help else none
          | _ => none
        else none

end Diaporama.CommandLine
