import Mathlib.Data.List.Basic
import Diaporama.Job

/-!
# How an encoder reads its arguments

Arguments are read from left to right. A token of two or more characters that begins with a hyphen
is an option, and most options take the next token as their value, whatever it looks like; any
other token is an output file. The settings in front of a file belong to that file. What is written
word by word is read back word by word, as long as no output file looks like an option.
-/

namespace Diaporama.Argument

inductive Key where
  | loop
  | duration
  | graph
  | map
  | videoCodec
  | preset
  | crf
  | pixels
  | audioCodec
  | audioBitrate
  deriving DecidableEq, Repr

namespace Key

def name : Key → String
  | loop => "-loop"
  | duration => "-t"
  | graph => "-filter_complex"
  | map => "-map"
  | videoCodec => "-c:v"
  | preset => "-preset"
  | crf => "-crf"
  | pixels => "-pix_fmt"
  | audioCodec => "-c:a"
  | audioBitrate => "-b:a"

def ofName? (name : String) : Option Key :=
  [loop, duration, graph, map, videoCodec, preset, crf, pixels, audioCodec, audioBitrate].find?
    fun key => key.name == name

end Key

inductive Setting where
  | value (key : Key) (text : String)
  | shortest
  deriving DecidableEq, Repr

inductive Word where
  | setting (setting : Setting)
  | input (path : String)
  | output (path : String)
  deriving DecidableEq, Repr

inductive Fault where
  | unknownOption (token : String)
  | noValue (option : String)
  deriving DecidableEq, Repr

def isOption (token : String) : Bool :=
  match token.toList with
  | '-' :: _ :: _ => true
  | _ => false

/-- What an option makes of the token behind it, if it takes one. -/
def valued? (option : String) : Option (String → Word) :=
  if option = "-i" then some .input
  else (Key.ofName? option).map fun key text => .setting (.value key text)

def words? : List String → Except Fault (List Word)
  | [] => .ok []
  | token :: rest =>
    if isOption token then
      if token = "-shortest" then (words? rest).map (.setting .shortest :: ·)
      else match valued? token with
        | none => .error (.unknownOption token)
        | some word =>
          match rest with
          | [] => .error (.noValue token)
          | text :: rest => (words? rest).map (word text :: ·)
    else (words? rest).map (.output token :: ·)

namespace Word

def args : Word → List String
  | setting (.value key text) => [key.name, text]
  | setting .shortest => ["-shortest"]
  | input path => ["-i", path]
  | output path => [path]

def output? : Word → Option String
  | output path => some path
  | setting _ | input _ => none

/-- Only an output file stands where options stand. -/
def Unmistakable (w : Word) : Prop :=
  ∀ path ∈ w.output?, isOption path = false

end Word

theorem words?_key (key : Key) (text : String) (rest : List String) :
    words? (key.name :: text :: rest) = (words? rest).map (.setting (.value key text) :: ·) := by
  have hOption : isOption key.name = true ∧ key.name ≠ "-shortest" ∧ key.name ≠ "-i" ∧
      Key.ofName? key.name = some key := by
    cases key <;> decide
  obtain ⟨hOption, hShortest, hInput, hName⟩ := hOption
  simp [words?, hOption, hShortest, valued?, hInput, hName]

theorem words?_args_append {w : Word} (hw : w.Unmistakable) (rest : List String) :
    words? (w.args ++ rest) = (words? rest).map (w :: ·) := by
  cases w with
  | setting s =>
      cases s with
      | value key text => exact words?_key key text rest
      | shortest =>
          have hOption : isOption "-shortest" = true := by decide
          simp [Word.args, words?, hOption]
  | input path =>
      have hOption : isOption "-i" = true := by decide
      simp [Word.args, words?, hOption, valued?]
  | output path =>
      have hPath : isOption path = false := hw path rfl
      simp [Word.args, words?, hPath]

/-- Words are read back from their arguments, and the reading goes on behind them. -/
theorem words?_flatMap_args_append {ws : List Word} (hws : ∀ w ∈ ws, w.Unmistakable)
    (rest : List String) :
    words? (ws.flatMap Word.args ++ rest) = (words? rest).map (ws ++ ·) := by
  induction ws with
  | nil => cases h : words? rest <;> simp [h, Except.map]
  | cons w ws ih =>
      obtain ⟨hw, hws⟩ := List.forall_mem_cons.mp hws
      rw [List.flatMap_cons, List.append_assoc, words?_args_append hw, ih hws]
      cases words? rest <;> rfl

theorem words?_flatMap_args {ws : List Word} (hws : ∀ w ∈ ws, w.Unmistakable) :
    words? (ws.flatMap Word.args) = .ok ws := by
  simpa [words?, Except.map] using words?_flatMap_args_append hws []

/-- At the end of the arguments an option is no output file, whichever it is. -/
theorem output?_of_words?_option {token : String} (h : isOption token = true) {ws : List Word}
    (hWords : words? [token] = .ok ws) : ws.filterMap Word.output? = [] := by
  rw [words?, if_pos h] at hWords
  split at hWords
  · cases hWords
    rfl
  · split at hWords <;> cases hWords

/-! ## Files and the settings in front of them -/

structure StatedFile where
  settings : List Setting
  path : String
  deriving DecidableEq, Repr

/-- The files to read and to write; settings behind the last file belong to none. -/
structure Orders where
  inputs : List StatedFile
  outputs : List StatedFile
  trailing : List Setting
  deriving DecidableEq, Repr

namespace Orders

/-- The orders in a list of words; `pending` are the settings that wait for their file. -/
def ofWords (pending : List Setting) : List Word → Orders
  | [] => ⟨[], [], pending⟩
  | .setting s :: ws => ofWords (pending ++ [s]) ws
  | .input path :: ws =>
    let orders := ofWords [] ws
    { orders with inputs := ⟨pending, path⟩ :: orders.inputs }
  | .output path :: ws =>
    let orders := ofWords [] ws
    { orders with outputs := ⟨pending, path⟩ :: orders.outputs }

def read? (args : List String) : Except Fault Orders :=
  (words? args).map (ofWords [])

theorem ofWords_settings_append (pending settings : List Setting) (ws : List Word) :
    ofWords pending (settings.map .setting ++ ws) = ofWords (pending ++ settings) ws := by
  induction settings generalizing pending with
  | nil => simp
  | cons s settings ih =>
      rw [List.map_cons, List.cons_append, ofWords, ih, List.append_assoc]
      rfl

def inputWords (file : StatedFile) : List Word :=
  file.settings.map .setting ++ [.input file.path]

theorem ofWords_inputs_append (files : List StatedFile) (ws : List Word) :
    ofWords [] (files.flatMap inputWords ++ ws) =
      { ofWords [] ws with inputs := files ++ (ofWords [] ws).inputs } := by
  induction files with
  | nil => rfl
  | cons file files ih =>
      rw [List.flatMap_cons, inputWords, List.append_assoc, List.append_assoc,
        ofWords_settings_append, List.singleton_append, ofWords, ih]
      rfl

theorem path_outputs_ofWords (pending : List Setting) (ws : List Word) :
    (ofWords pending ws).outputs.map StatedFile.path = ws.filterMap Word.output? := by
  induction ws generalizing pending with
  | nil => rfl
  | cons w ws ih =>
      cases w with
      | setting s => exact ih _
      | input path => exact ih []
      | output path => exact congrArg (path :: ·) (ih [])

end Orders

end Diaporama.Argument
