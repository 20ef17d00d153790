import Mathlib.Data.List.Basic
import Diaporama.Job

/-!
# Times in the arguments

The arguments of a job are put together from pieces: fixed texts, and texts of times. The times
among the pieces are those of the inputs and of the filters, in order.
-/

namespace Diaporama

variable {T : Type}

/-! ## The times of a job -/

def Input.times : Input T → List T
  | .still _ hold => [hold]
  | .audio _ => []

def Filter.times : Filter T → List T
  | .fade _ start duration => [start, duration]
  | .blend _ duration offset => [duration, offset]
  | _ => []

/-- All times of a job: those of its inputs, those of its filters and its duration. -/
def Job.times (j : Job T) : List T :=
  j.inputs.flatMap Input.times ++
    j.graph.nodes.toList.flatMap (fun n => n.filters.flatMap Filter.times) ++ [j.duration]

theorem Job.duration_mem_times (j : Job T) : j.duration ∈ j.times :=
  List.mem_append_right _ (List.mem_singleton_self _)

/-! ## Pieces -/

inductive Piece (T : Type) where
  | fixed (text : String)
  | time (value : T)

namespace Piece

def time? : Piece T → Option T
  | fixed _ => none
  | time value => some value

@[simp] theorem filterMap_time?_cons (s : String) (ps : List (Piece T)) :
    (fixed s :: ps).filterMap time? = ps.filterMap time? := rfl

def text : Piece Float → String
  | fixed text => text
  | time value => Seconds.text value

@[simp] theorem text_fixed (s : String) : (fixed s).text = s := rfl

@[simp] theorem text_time (x : Float) : (time x).text = Seconds.text x := rfl

def written (pieces : List (Piece Float)) : String :=
  String.join (pieces.map text)

theorem written_append (ps qs : List (Piece Float)) :
    written (ps ++ qs) = written ps ++ written qs := by
  simp [written]

theorem written_singleton (p : Piece Float) : written [p] = p.text := by
  simp [written]

theorem written_intercalate (separator : String) (parts : List (List (Piece Float))) :
    written ([fixed separator].intercalate parts) = separator.intercalate (parts.map written) := by
  induction parts with
  | nil => rfl
  | cons part parts ih =>
    cases parts with
    | nil => simp
    | cons next parts =>
      rw [List.intercalate_cons_cons, written_append, written_append, ih, written_singleton]
      simp

theorem filterMap_time?_intercalate (separator : String) (parts : List (List (Piece T))) :
    ([fixed separator].intercalate parts).filterMap time? =
      parts.flatMap fun part => part.filterMap time? := by
  induction parts with
  | nil => rfl
  | cons part parts ih =>
    cases parts with
    | nil => simp
    | cons next parts =>
      rw [List.intercalate_cons_cons, List.filterMap_append, List.filterMap_append, ih,
        List.flatMap_cons]
      simp

theorem filterMap_time?_fixed (texts : List String) :
    (texts.map fun text => [fixed text]).flatten.filterMap (time? : Piece T → Option T) = [] := by
  induction texts with
  | nil => rfl
  | cons text texts ih => exact ih

end Piece

namespace Filter

def pieces : Filter Float → List (Piece Float)
  | fade direction start duration =>
    [.fixed ("fade=t=" ++ direction.name ++ ":st="), .time start, .fixed ":d=", .time duration]
  | blend style duration offset =>
    [.fixed ("xfade=transition=" ++ style.name ++ ":duration="), .time duration,
      .fixed ":offset=", .time offset]
  | f => [.fixed f.text]

theorem written_pieces (f : Filter Float) : Piece.written f.pieces = f.text := by
  cases f with
  | fade direction start duration =>
    change _ = "fade=t=" ++ direction.name ++ ":st=" ++ Seconds.text start ++ ":d=" ++
      Seconds.text duration
    simp [pieces, Piece.written, String.append_assoc]
  | blend style duration offset =>
    change _ = "xfade=transition=" ++ style.name ++ ":duration=" ++ Seconds.text duration ++
      ":offset=" ++ Seconds.text offset
    simp [pieces, Piece.written, String.append_assoc]
  | cover | crop | squarePixels | format => exact Piece.written_singleton _

theorem filterMap_time?_pieces (f : Filter Float) : f.pieces.filterMap Piece.time? = f.times := by
  cases f <;> rfl

end Filter

namespace Node

def pieces (n : Node Float) : List (Piece Float) :=
  [.fixed (String.join (n.inputs.map Pad.text))] ++
    [.fixed ","].intercalate (n.filters.map Filter.pieces) ++
    [.fixed (String.join (n.outputs.map fun name => "[" ++ name ++ "]"))]

theorem written_pieces (n : Node Float) : Piece.written n.pieces = n.statement := by
  rw [pieces, Piece.written_append, Piece.written_append, Piece.written_intercalate, List.map_map,
    Piece.written_singleton, Piece.written_singleton, statement]
  simp [Function.comp_def, Filter.written_pieces]

theorem filterMap_time?_pieces (n : Node Float) :
    n.pieces.filterMap Piece.time? = n.filters.flatMap Filter.times := by
  rw [pieces, List.filterMap_append, List.filterMap_append, Piece.filterMap_time?_intercalate]
  simp [List.flatMap_map, Filter.filterMap_time?_pieces]

end Node

namespace Graph

def pieces (g : Graph Float) : List (Piece Float) :=
  [.fixed ";"].intercalate (g.nodes.toList.map Node.pieces)

theorem written_pieces (g : Graph Float) : Piece.written g.pieces = g.expression := by
  rw [pieces, Piece.written_intercalate, List.map_map, expression]
  simp [Function.comp_def, Node.written_pieces]

theorem filterMap_time?_pieces (g : Graph Float) :
    g.pieces.filterMap Piece.time? =
      g.nodes.toList.flatMap fun n => n.filters.flatMap Filter.times := by
  rw [pieces, Piece.filterMap_time?_intercalate]
  simp [List.flatMap_map, Node.filterMap_time?_pieces]

end Graph

namespace Input

def pieces : Input Float → List (List (Piece Float))
  | still path hold =>
    [[.fixed "-loop"], [.fixed "1"], [.fixed "-t"], [.time hold], [.fixed "-i"],
      [.fixed path.display]]
  | audio path => [[.fixed "-i"], [.fixed path.display]]

theorem map_written_pieces (i : Input Float) : i.pieces.map Piece.written = i.args := by
  cases i <;> simp [pieces, Piece.written_singleton, args]

theorem filterMap_time?_pieces (i : Input Float) :
    i.pieces.flatten.filterMap Piece.time? = i.times := by
  cases i <;> rfl

theorem filterMap_time?_flatMap_pieces (is : List (Input Float)) :
    (is.flatMap pieces).flatten.filterMap Piece.time? = is.flatMap times := by
  induction is with
  | nil => rfl
  | cons i is ih =>
    rw [List.flatMap_cons, List.flatten_append, List.filterMap_append, ih,
      filterMap_time?_pieces, List.flatMap_cons]

end Input

namespace Job

variable (j : Job Float)

def pieces : List (List (Piece Float)) :=
  j.inputs.flatMap Input.pieces ++ [[.fixed "-filter_complex"], j.graph.pieces] ++
    (["-map", "[" ++ j.videoLink ++ "]"] ++ audioMap j.audio ++ videoArgs j.encoder ++
      audioArgs j.encoder j.audio ++ [j.output.display]).map fun text => [.fixed text]

theorem map_written_pieces : j.pieces.map Piece.written = j.args := by
  rw [pieces, List.map_append, List.map_append, List.map_flatMap, List.map_map, args]
  simp [Function.comp_def, Input.map_written_pieces, Piece.written_singleton,
    Graph.written_pieces]

/-- The times of a job are those in its arguments and its duration. -/
theorem times_eq_pieces : j.times = j.pieces.flatten.filterMap Piece.time? ++ [j.duration] := by
  rw [times, pieces, List.flatten_append, List.flatten_append, List.filterMap_append,
    List.filterMap_append, Input.filterMap_time?_flatMap_pieces, Piece.filterMap_time?_fixed]
  simp [Graph.filterMap_time?_pieces]

end Job

end Diaporama
