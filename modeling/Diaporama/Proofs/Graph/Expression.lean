import Diaporama.Proofs.Graph.Fields
import Diaporama.Proofs.Graph.Sound

/-!
# Reading a graph from its text

The text of a graph names no labels and no roles and holds times as texts; all else can be read back
from it. The names of links and of pixel formats go into the text as they are, so this asks that
they hold no separators.
-/

namespace Diaporama

open Text (Within Avoids)

variable {T : Type}

/-! ## Pads -/

def StreamKind.ofLetter? (letter : String) : Option StreamKind :=
  [video, audio].find? fun k => k.letter == letter

theorem StreamKind.ofLetter?_letter (k : StreamKind) : ofLetter? k.letter = some k := by
  cases k <;> decide

/-- The characters that a link cannot hold if the text of its graph is to be read back: a colon
would make it look like a source. -/
def linkSeparators : List Char :=
  ':' :: separators

namespace Pad

def name : Pad → String
  | source input stream => toString input ++ ":" ++ stream.letter
  | link name => name

theorem toList_text (p : Pad) : p.text.toList = Statement.bracket p.name.toList := by
  cases p <;> simp [text, name, Statement.bracket]

/-- Only the number of a source stands before a colon. -/
def ofChars? (cs : List Char) : Option Pad :=
  match cs.splitOn ':' with
  | [name] => some (.link (String.ofList name))
  | [input, stream] => do
    return .source (← number? input) (← StreamKind.ofLetter? (String.ofList stream))
  | _ => none

theorem not_mem_name_source (input : Nat) (stream : StreamKind) {c : Char}
    (hField : isFieldChar c = false) (hColon : c ≠ ':') :
    c ∉ (Pad.source input stream).name.toList := by
  have hInput : c ∉ (toString input).toList :=
    (isField_of_numeric (Layout.numeric_nat input)).not_mem hField
  have hStream : Within isFieldChar stream.letter := by
    cases stream <;> decide
  simp only [name, String.toList_append, List.mem_append, not_or]
  exact ⟨⟨hInput, by simpa using hColon⟩, hStream.not_mem hField⟩

theorem ofChars?_name {p : Pad} (h : ∀ link, p = .link link → ':' ∉ link.toList) :
    ofChars? p.name.toList = some p := by
  cases p with
  | source input stream =>
      have hInput : ':' ∉ (toString input).toList :=
        (isField_of_numeric (Layout.numeric_nat input)).not_mem (by decide)
      have hStream : ':' ∉ stream.letter.toList := by
        cases stream <;> decide
      have hName : (Pad.source input stream).name.toList =
          (toString input).toList ++ ':' :: stream.letter.toList := by
        simp [name]
      rw [ofChars?, hName, List.splitOn_append_cons_self_of_not_mem hInput,
        List.splitOn_eq_singleton hStream]
      simp only [number?_toString, String.ofList_toList, StreamKind.ofLetter?_letter,
        Option.bind_eq_bind, Option.bind_some]
      rfl
  | link name =>
      rw [ofChars?, Pad.name, List.splitOn_eq_singleton (h name rfl)]
      simp

end Pad

/-! ## Nodes -/

structure Clause where
  inputs : List Pad
  filters : List (Filter String)
  outputs : List String

def Clause.ofStatement? (s : Statement) : Option Clause := do
  return ⟨← s.inputs.mapM Pad.ofChars?, ← s.filters.mapM Filter.ofChars?,
    s.outputs.map String.ofList⟩

namespace Node

def clause (n : Node Float) : Clause :=
  ⟨n.inputs, n.filters.map (·.mapTime Seconds.text), n.outputs⟩

def parts (n : Node Float) : Statement :=
  ⟨n.inputs.map (·.name.toList), n.filters.map (·.text.toList), n.outputs.map String.toList⟩

/-- The names in a node leave the separators of a graph's text alone. -/
structure Legible (n : Node T) : Prop where
  links : ∀ link, link ∈ n.reads ∨ link ∈ n.outputs → Avoids linkSeparators link
  filters : ∀ f ∈ n.filters, f.Legible

theorem toList_statement (n : Node Float) : n.statement.toList = n.parts.chars := by
  have hInputs : (n.inputs.map Pad.text).flatMap String.toList =
      (n.inputs.map (·.name.toList)).flatMap Statement.bracket := by
    simp [List.flatMap_map, Pad.toList_text]
  have hOutputs : (n.outputs.map fun name => "[" ++ name ++ "]").flatMap String.toList =
      (n.outputs.map String.toList).flatMap Statement.bracket := by
    simp [List.flatMap_map, Statement.bracket]
  simp [statement, parts, Statement.chars, String.toList_join, String.toList_intercalate, hInputs,
    hOutputs, Function.comp_def]

theorem Legible.separated {n : Node Float} (h : n.Legible) (hFilters : n.filters ≠ []) :
    n.parts.Separated where
  names := by
    have hLink : ∀ link, link ∈ n.reads ∨ link ∈ n.outputs →
        ']' ∉ link.toList ∧ ';' ∉ link.toList := fun link hLink =>
      ⟨h.links link hLink _ (by decide), h.links link hLink _ (by decide)⟩
    intro cs hcs
    rcases List.mem_append.mp hcs with hcs | hcs
    · obtain ⟨pad, hPad, rfl⟩ := List.mem_map.mp hcs
      cases pad with
      | source input stream =>
          exact ⟨Pad.not_mem_name_source input stream (by decide) (by decide),
            Pad.not_mem_name_source input stream (by decide) (by decide)⟩
      | link name => exact hLink name (.inl (mem_reads_iff.mpr hPad))
    · obtain ⟨name, hName, rfl⟩ := List.mem_map.mp hcs
      exact hLink name (.inr hName)
  filters_ne := by simpa [parts] using hFilters
  filters := by
    intro cs hcs
    obtain ⟨f, hf, rfl⟩ := List.mem_map.mp hcs
    have hText {c : Char} (hc : c ∈ separators) : c ∉ f.text.toList :=
      (h.filters f hf).not_mem_text hc
    exact ⟨f.text_ne_nil, hText (by decide), hText (by decide), hText (by decide)⟩

theorem Legible.ofStatement?_parts {n : Node Float} (h : n.Legible) :
    Clause.ofStatement? n.parts = some n.clause := by
  have hInputs : (n.inputs.map (·.name.toList)).mapM Pad.ofChars? = some n.inputs := by
    have hPads : ∀ pad ∈ n.inputs, Pad.ofChars? pad.name.toList = some (id pad) := by
      refine fun pad hPad => Pad.ofChars?_name fun link hLink => ?_
      have hRead : link ∈ n.reads := mem_reads_iff.mpr (hLink ▸ hPad)
      exact h.links link (.inl hRead) _ (by decide)
    simpa using Statement.mapM_map_eq_some hPads
  have hFilters : (n.filters.map (·.text.toList)).mapM Filter.ofChars? =
      some (n.filters.map (·.mapTime Seconds.text)) :=
    Statement.mapM_map_eq_some fun f _ => f.ofChars?_text
  simp [Clause.ofStatement?, parts, hInputs, hFilters, clause]

end Node

/-! ## Graphs -/

namespace Graph

def clauses? (text : String) : Option (List Clause) := do
  (← Statement.allOfChars? text.toList).mapM Clause.ofStatement?

/-- No link of the graph holds a separator, and no pixel format one that parts filters. -/
structure Legible (g : Graph T) : Prop where
  links : ∀ link ∈ g.written, Avoids linkSeparators link
  filters : ∀ n ∈ g.nodes, ∀ f ∈ n.filters, f.Legible

theorem Legible.node {g : Graph T} (hSound : g.Sound) (h : g.Legible) {n : Node T}
    (hn : n ∈ g.nodes) : n.Legible where
  links := by
    have hMem : n ∈ g.nodes.toList := Array.mem_toList_iff.mpr hn
    rintro link (hRead | hOut)
    · exact h.links link (hSound.wired.reads_subset hMem hRead)
    · exact h.links link (List.mem_flatMap.mpr ⟨n, hMem, hOut⟩)
  filters := h.filters n hn

theorem toList_expression (g : Graph Float) : g.expression.toList =
    [';'].intercalate ((g.nodes.toList.map Node.parts).map Statement.chars) := by
  simp [expression, String.toList_intercalate, Node.toList_statement, Function.comp_def]

theorem Legible.separated {g : Graph Float} (hSound : g.Sound) (h : g.Legible) :
    ∀ s ∈ g.nodes.toList.map Node.parts, s.Separated := by
  intro s hs
  obtain ⟨n, hn, rfl⟩ := List.mem_map.mp hs
  obtain ⟨first, rest, hFilters, -⟩ := (hSound.wired.formed n hn).arity
  exact (h.node hSound (Array.mem_toList_iff.mp hn)).separated (by simp [hFilters])

theorem Legible.clauses?_expression {g : Graph Float} (hSound : g.Sound) (h : g.Legible) :
    clauses? g.expression = some (g.nodes.toList.map Node.clause) := by
  rw [clauses?, g.toList_expression, Statement.allOfChars?_intercalate (h.separated hSound),
    Option.bind_eq_bind, Option.bind_some]
  exact Statement.mapM_map_eq_some fun n hn =>
    (h.node hSound (Array.mem_toList_iff.mp hn)).ofStatement?_parts

/-- The text of a graph built by pushes, accepted or refused, is read back as the inputs, filters
and outputs of its nodes, so no other such graph with the same text differs in them. -/
theorem expression_unambiguous (k : Nat) (offered : List (Node Float))
    (hLegible : ((empty k).offerAll offered).Legible) :
    let g := (empty k).offerAll offered
    clauses? g.expression = some (g.nodes.toList.map Node.clause) ∧
      ∀ (k' : Nat) (offered' : List (Node Float)),
        let g' := (empty k').offerAll offered'
        g'.Legible → g'.expression = g.expression →
          g'.nodes.toList.map Node.clause = g.nodes.toList.map Node.clause := by
  intro g
  have hRead : clauses? g.expression = some (g.nodes.toList.map Node.clause) :=
    hLegible.clauses?_expression ((sound_empty k).offerAll offered)
  refine ⟨hRead, ?_⟩
  intro k' offered' g' hLegible' hText
  have hRead' := hLegible'.clauses?_expression ((sound_empty k').offerAll offered')
  rw [hText, hRead] at hRead'
  exact (Option.some.inj hRead').symm

/-- Pushes of a graph whose links look like a number or are empty and whose pixel format looks like
fields; the third of them is refused. -/
def blendOffers : List (Node Float) := [
  ⟨"a", .normalize, [.cover ⟨2, 2⟩, .format "x:y=z"], [.source 0 .video], ["0"]⟩,
  ⟨"b", .entrance, [.fade .fromBlack 0.0 0.5], [.source 1 .video], [""]⟩,
  ⟨"a", .output, [.squarePixels], [.link "0"], ["outv"]⟩,
  ⟨"c", .transition, [.blend .zoomIn 0.5 4.0], [.link "0", .link ""], ["v"]⟩]

theorem expression_unambiguous_blend :
    ((empty 2).offerAll blendOffers).Legible ∧
      clauses? ((empty 2).offerAll blendOffers).expression = some [
        ⟨[.source 0 .video], [.cover ⟨2, 2⟩, .format "x:y=z"], ["0"]⟩,
        ⟨[.source 1 .video], [.fade .fromBlack (Seconds.text 0.0) (Seconds.text 0.5)], [""]⟩,
        ⟨[.link "0", .link ""], [.blend .zoomIn (Seconds.text 0.5) (Seconds.text 4.0)],
          ["v"]⟩] := by
  have hNodes : ((empty 2).offerAll blendOffers).nodes.toList = blendOffers.eraseIdx 2 := by rfl
  have hLegible : ((empty 2).offerAll blendOffers).Legible := by
    constructor
    · rw [written, hNodes]
      decide
    · intro n hn
      rw [← Array.mem_toList_iff, hNodes] at hn
      revert n
      decide
  have hRead := (expression_unambiguous 2 blendOffers hLegible).1
  rw [hNodes] at hRead
  exact ⟨hLegible, hRead⟩

end Graph

end Diaporama
