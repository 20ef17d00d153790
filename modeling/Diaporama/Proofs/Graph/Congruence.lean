import Diaporama.Error
import Diaporama.Proofs.Graph.Reordering
import Diaporama.Proofs.Slideshow.Equality

/-!
# Equal graphs cannot be told apart

Equality of graphs looks at the nodes alone and takes both zeros for one time. Whatever is asked of
two equal graphs, and whatever is pushed to both, the answers are the same. Equality itself is lost
on the way when a time is not a number; what is kept is that the nodes are alike in all that can be
seen of them.
-/

namespace Diaporama

/-! ## Nodes that look alike -/

structure Node.Alike (n m : Node Float) : Prop where
  label : n.label = m.label
  texts : n.filters.map Filter.text = m.filters.map Filter.text
  inputs : n.inputs = m.inputs
  outputs : n.outputs = m.outputs

namespace Node

variable {n m : Node Float}

theorem Alike.refl (n : Node Float) : n.Alike n where
  label := rfl
  texts := rfl
  inputs := rfl
  outputs := rfl

theorem Alike.of_beq (h : (n == m) = true) : n.Alike m := by
  obtain ⟨hLabel, -, hFilters, hInputs, hOutputs⟩ := beq_iff.mp h
  refine ⟨hLabel, ?_, hInputs, hOutputs⟩
  rw [← List.forall₂_eq_eq_eq, List.forall₂_map_left_iff, List.forall₂_map_right_iff]
  exact (forall₂_of_beq hFilters).imp Filter.text_eq_of_beq

theorem Alike.reads_eq (h : n.Alike m) : n.reads = m.reads := by
  rw [reads, reads, h.inputs]

theorem Alike.statement_eq (h : n.Alike m) : n.statement = m.statement := by
  rw [statement, statement, h.inputs, h.outputs, h.texts]

end Node

namespace Graph

section

variable {T : Type} {g h : Graph T}

theorem checkInputs_eq (hCount : g.inputCount = h.inputCount)
    (hLinks : ∀ link : String, g.links[link]? = h.links[link]?) (node : String)
    (seen : List String) (pads : List Pad) :
    g.checkInputs node seen pads = h.checkInputs node seen pads := by
  induction pads generalizing seen with
  | nil => rfl
  | cons pad pads ih =>
    cases pad with
    | source input stream => rw [checkInputs, checkInputs, hCount, ih]
    | link name => simp only [checkInputs, hLinks, ih]

theorem checkOutputs_eq (hLinks : ∀ link : String, g.links[link]? = h.links[link]?)
    (node : String) (seen names : List String) :
    g.checkOutputs node seen names = h.checkOutputs node seen names := by
  induction names generalizing seen with
  | nil => rfl
  | cons name names ih =>
    rw [checkOutputs, checkOutputs, ih, Std.TreeMap.contains_eq_isSome_getElem?,
      Std.TreeMap.contains_eq_isSome_getElem?, hLinks]

/-- A push looks only at which labels and links there are and in which state. -/
theorem check_eq (hCount : g.inputCount = h.inputCount)
    (hLabels : ∀ label, label ∈ g.labels ↔ label ∈ h.labels)
    (hLinks : ∀ link : String, g.links[link]? = h.links[link]?) (n : Node T) :
    g.check n = h.check n := by
  have hLabel : g.labels.contains n.label = h.labels.contains n.label := by
    rw [Bool.eq_iff_iff, Std.TreeSet.contains_iff_mem, Std.TreeSet.contains_iff_mem, hLabels]
  simp only [check, hLabel, checkInputs_eq hCount hLinks, checkOutputs_eq hLinks]

end

/-! ## Graphs that look alike -/

/-- Sound graphs over the same inputs, whose nodes look alike one by one. -/
structure Alike (g h : Graph Float) : Prop where
  sound_left : g.Sound
  sound_right : h.Sound
  inputCount : g.inputCount = h.inputCount
  nodes : List.Forall₂ Node.Alike g.nodes.toList h.nodes.toList

namespace Alike

variable {g h : Graph Float}

theorem of_beq (hg : g.Sound) (hh : h.Sound) (hEqual : (g == h) = true) : Alike g h := by
  obtain ⟨hCount, hNodes⟩ := Bool.and_eq_true_iff.mp hEqual
  refine ⟨hg, hh, eq_of_beq hCount, ?_⟩
  have hList : (g.nodes.toList == h.nodes.toList) = true := by rw [Array.beq_toList, hNodes]
  apply (forall₂_of_beq hList).imp
  intro n m hNode
  exact .of_beq hNode

/-- What is the same in nodes that look alike is the same in the graphs, node by node. -/
theorem map_eq (hAlike : Alike g h) {α : Type} {f : Node Float → α}
    (hSame : ∀ n m : Node Float, n.Alike m → f n = f m) :
    g.nodes.toList.map f = h.nodes.toList.map f := by
  rw [← List.forall₂_eq_eq_eq, List.forall₂_map_left_iff, List.forall₂_map_right_iff]
  exact hAlike.nodes.imp hSame

theorem written_eq (hAlike : Alike g h) : g.written = h.written := by
  rw [written, written, List.flatMap_def, List.flatMap_def,
    hAlike.map_eq fun _ _ hNode => hNode.outputs]

theorem read_eq (hAlike : Alike g h) : g.read = h.read := by
  rw [read, read, List.flatMap_def, List.flatMap_def,
    hAlike.map_eq fun _ _ hNode => hNode.reads_eq]

theorem links_eq (hAlike : Alike g h) (link : String) : g.links[link]? = h.links[link]? := by
  apply hAlike.sound_left.links_eq_of_mem_iff hAlike.sound_right
  · intro link
    rw [hAlike.written_eq]
  · intro link
    rw [hAlike.read_eq]

theorem labels_iff (hAlike : Alike g h) (label : String) : label ∈ g.labels ↔ label ∈ h.labels := by
  rw [hAlike.sound_left.labels_iff, hAlike.sound_right.labels_iff,
    hAlike.map_eq fun _ _ hNode => hNode.label]

theorem check_eq (hAlike : Alike g h) (n : Node Float) : g.check n = h.check n :=
  Graph.check_eq hAlike.inputCount hAlike.labels_iff hAlike.links_eq n

theorem validate_eq (hAlike : Alike g h) (sink : String) : g.validate sink = h.validate sink :=
  validate_eq_of_openLinks (openLinks_eq_of_links hAlike.links_eq) sink

theorem expression_eq (hAlike : Alike g h) : g.expression = h.expression := by
  rw [expression, expression, hAlike.map_eq fun _ _ hNode => hNode.statement_eq]

theorem producer?_eq (hAlike : Alike g h) (link : String) :
    (g.producer? link).map (fun n => (n.label, n.statement)) =
      (h.producer? link).map fun n => (n.label, n.statement) := by
  have hNodes := hAlike.nodes
  rw [producer?, producer?, ← Array.find?_toList, ← Array.find?_toList]
  generalize g.nodes.toList = ns, h.nodes.toList = ms at hNodes
  induction hNodes with
  | nil => rfl
  | @cons n m ns ms hNode _ ih =>
    rw [List.find?_cons, List.find?_cons, hNode.outputs]
    cases m.outputs.contains link with
    | true => simp only [Option.map_some, hNode.label, hNode.statement_eq]
    | false => exact ih

theorem insert (hAlike : Alike g h) {n : Node Float} (hg : g.Fits n) (hh : h.Fits n) :
    Alike (g.insert n) (h.insert n) where
  sound_left := hAlike.sound_left.insert hg
  sound_right := hAlike.sound_right.insert hh
  inputCount := hAlike.inputCount
  nodes := by
    rw [toList_nodes_insert, toList_nodes_insert]
    exact List.rel_append hAlike.nodes (.cons (.refl n) .nil)

/-- A push is accepted on both graphs, which look alike again, or refused on both for one reason. -/
theorem push (hAlike : Alike g h) (n : Node Float) :
    (∃ g' h', g.push n = .ok g' ∧ h.push n = .ok h' ∧ Alike g' h') ∨
      ∃ violation, g.push n = .error violation ∧ h.push n = .error violation := by
  have hCheck := hAlike.check_eq n
  cases hLeft : g.check n with
  | error violation =>
    refine .inr ⟨violation, ?_, ?_⟩
    · rw [Graph.push, hLeft]
      rfl
    · rw [Graph.push, ← hCheck, hLeft]
      rfl
  | ok _ =>
    have hg : g.Fits n := (check_eq_ok_iff g n).mp hLeft
    have hh : h.Fits n := (check_eq_ok_iff h n).mp (hCheck ▸ hLeft)
    exact .inl ⟨_, _, push_eq_ok_iff.mpr ⟨hg, rfl⟩, push_eq_ok_iff.mpr ⟨hh, rfl⟩,
      hAlike.insert hg hh⟩

end Alike

/-! ## Calls and answers -/

inductive Call where
  | push (node : Node Float)
  | validate (sink : String)
  | producer (link : String)
  | expression

/-- What is seen of an answer: that a push or a check went well or the message of its error, the
label and the statement of a node, or a text. -/
inductive Answer where
  | outcome (result : Except String Unit)
  | producer (found : Option (String × String))
  | text (text : String)

def Answer.ofResult {α : Type} (result : Except Violation α) : Answer :=
  .outcome (match result with
    | .ok _ => .ok ()
    | .error violation => .error (Error.graph violation).message)

def answer (g : Graph Float) : Call → Answer
  | .push n => .ofResult (g.push n)
  | .validate sink => .ofResult (g.validate sink)
  | .producer link => .producer ((g.producer? link).map fun n => (n.label, n.statement))
  | .expression => .text g.expression

/-- The graph behind a call: only a push changes it, and only where it is accepted. -/
def after (g : Graph Float) : Call → Graph Float
  | .push n => g.offer n
  | _ => g

def answers (g : Graph Float) : List Call → List Answer
  | [] => []
  | call :: calls => g.answer call :: (g.after call).answers calls

section

variable {g h : Graph Float}

theorem Alike.answer_eq (hAlike : Alike g h) (call : Call) : g.answer call = h.answer call := by
  cases call with
  | push n =>
    rw [answer, answer]
    obtain ⟨g', h', hg, hh, -⟩ | ⟨violation, hg, hh⟩ := hAlike.push n
    · rw [hg, hh]
      rfl
    · rw [hg, hh]
  | validate sink => rw [answer, answer, hAlike.validate_eq]
  | producer link => rw [answer, answer, hAlike.producer?_eq]
  | expression => rw [answer, answer, hAlike.expression_eq]

theorem Alike.after (hAlike : Alike g h) (call : Call) : Alike (g.after call) (h.after call) := by
  cases call with
  | push n =>
    rw [Graph.after, Graph.after, offer, offer]
    obtain ⟨g', h', hg, hh, hNext⟩ | ⟨violation, hg, hh⟩ := hAlike.push n
    · rw [hg, hh]
      exact hNext
    · rw [hg, hh]
      exact hAlike
  | validate sink => exact hAlike
  | producer link => exact hAlike
  | expression => exact hAlike

theorem Alike.answers_eq (hAlike : Alike g h) (calls : List Call) :
    g.answers calls = h.answers calls := by
  induction calls generalizing g h with
  | nil => rfl
  | cons call calls ih => rw [answers, answers, hAlike.answer_eq, ih (hAlike.after call)]

end

/-- Equal graphs that grew by pushes answer every sequence of calls alike, whatever it pushes. -/
theorem answers_eq_of_beq {j k : Nat} {ms ns : List (Node Float)}
    (hEqual : (((empty j).offerAll ms : Graph Float) == (empty k).offerAll ns) = true)
    (calls : List Call) :
    ((empty j).offerAll ms).answers calls = ((empty k).offerAll ns).answers calls := by
  apply Alike.answers_eq
  exact .of_beq ((sound_empty j).offerAll ms) ((sound_empty k).offerAll ns) hEqual

/-- Two fades that start at the two zeros. Behind them a fade whose start is not a number is pushed
twice: the graphs are no longer equal, and still answer alike. -/
theorem answers_eq_of_beq_zeros :
    let first (start : Float) : Node Float :=
      ⟨"a", .entrance, [.fade .fromBlack start 0.5], [.source 0 .video], ["x"]⟩
    let last : Node Float := ⟨"b", .output, [.fade .toBlack (0 / 0) 0.5], [.link "x"], ["outv"]⟩
    let g (start : Float) : Graph Float := (empty 1).offerAll [first start]
    let calls : List Call :=
      [.push last, .push last, .validate "outv", .producer "x", .expression]
    (g 0 == g (-0)) = true ∧ (0 : Float) ≠ -0 ∧
      ((g 0).after (.push last) == (g (-0)).after (.push last)) = false ∧
      (g 0).answers calls = (g (-0)).answers calls := by
  intro first last g calls
  have hEqual : (g 0 == g (-0)) = true := by decide +kernel
  exact ⟨hEqual, by decide, by decide +kernel, answers_eq_of_beq hEqual calls⟩

end Graph

end Diaporama
