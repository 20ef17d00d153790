import Diaporama.Graph.Basic
import Diaporama.Proofs.Text.Characters

/-!
# Taking a graph's text apart

The text of a graph falls into statements at its semicolons, and a statement into names in brackets,
filters between commas, and names in brackets again. Where the separators stand nowhere else, the
text of statements gives back the statements.
-/

namespace Diaporama

/-- A statement taken apart: the names in brackets before its filters and behind them. -/
structure Statement where
  inputs : List (List Char)
  filters : List (List Char)
  outputs : List (List Char)
  deriving DecidableEq

namespace Statement

def bracket (name : List Char) : List Char :=
  '[' :: name ++ [']']

def chars (s : Statement) : List Char :=
  s.inputs.flatMap bracket ++ [','].intercalate s.filters ++ s.outputs.flatMap bracket

/-- The names in brackets at the front of a text and what stands behind them. Inside a bracket the
first argument is what was read of its name; a bracket left open is refused. -/
def takeNames : Option (List Char) → List Char → Option (List (List Char) × List Char)
  | none, [] => some ([], [])
  | none, c :: cs => if c = '[' then takeNames (some []) cs else some ([], c :: cs)
  | some _, [] => none
  | some name, c :: cs =>
    if c = ']' then (takeNames none cs).map fun (names, rest) => (name :: names, rest)
    else takeNames (some (name ++ [c])) cs

def ofChars? (cs : List Char) : Option Statement := do
  let (inputs, body) ← takeNames none cs
  let (outputs, rest) ← takeNames none (body.dropWhile (· != '['))
  if rest.isEmpty then some ⟨inputs, (body.takeWhile (· != '[')).splitOn ',', outputs⟩ else none

def allOfChars? (cs : List Char) : Option (List Statement) :=
  if cs.isEmpty then some [] else (cs.splitOn ';').mapM ofChars?

/-- The separators of a statement stand only where they part it. -/
structure Separated (s : Statement) : Prop where
  names : ∀ name ∈ s.inputs ++ s.outputs, ']' ∉ name ∧ ';' ∉ name
  filters_ne : s.filters ≠ []
  filters : ∀ filter ∈ s.filters, filter ≠ [] ∧ '[' ∉ filter ∧ ',' ∉ filter ∧ ';' ∉ filter

theorem takeNames_bracket {name : List Char} (h : ']' ∉ name) (rest : List Char) :
    takeNames none (bracket name ++ rest) =
      (takeNames none rest).map fun (names, rest) => (name :: names, rest) := by
  have hInside : ∀ begun, takeNames (some begun) (name ++ ']' :: rest) =
      (takeNames none rest).map fun (names, rest) => ((begun ++ name) :: names, rest) := by
    induction name with
    | nil => simp [takeNames]
    | cons c name ih =>
        intro begun
        obtain ⟨hc, hName⟩ := not_or.mp (mt List.mem_cons.mpr h)
        rw [List.cons_append, takeNames, if_neg (Ne.symm hc), ih hName, List.append_assoc]
        rfl
  rw [bracket, List.cons_append, List.cons_append, takeNames, if_pos rfl, List.append_assoc]
  exact hInside []

theorem takeNames_brackets {names : List (List Char)} (h : ∀ name ∈ names, ']' ∉ name)
    {rest : List Char} (hRest : rest.head? ≠ some '[') :
    takeNames none (names.flatMap bracket ++ rest) = some (names, rest) := by
  induction names with
  | nil =>
      cases rest with
      | nil => rfl
      | cons c rest =>
          have hc : c ≠ '[' := fun hc => hRest (hc ▸ rfl)
          simp [takeNames, hc]
  | cons name names ih =>
      obtain ⟨hName, hNames⟩ := List.forall_mem_cons.mp h
      rw [List.flatMap_cons, List.append_assoc, takeNames_bracket hName, ih hNames]
      rfl

theorem Separated.bracket_not_mem {s : Statement} (h : s.Separated) :
    '[' ∉ [','].intercalate s.filters := by
  intro hMem
  rcases Text.mem_intercalate hMem with hComma | ⟨filter, hFilter, hMem⟩
  · simp at hComma
  · exact (h.filters filter hFilter).2.1 hMem

theorem not_mem_chars {s : Statement} {c : Char} (hc : c ∉ ['[', ']', ','])
    (hNames : ∀ name ∈ s.inputs ++ s.outputs, c ∉ name) (hFilters : ∀ filter ∈ s.filters, c ∉ filter) :
    c ∉ s.chars := by
  simp only [List.mem_cons, List.not_mem_nil, or_false, not_or] at hc
  obtain ⟨hOpening, hClosing, hComma⟩ := hc
  have hBrackets : ∀ names : List (List Char), (∀ name ∈ names, name ∈ s.inputs ++ s.outputs) →
      c ∉ names.flatMap bracket := by
    intro names hSub hMem
    obtain ⟨name, hName, hMem⟩ := List.mem_flatMap.mp hMem
    have hOutside := hNames name (hSub name hName)
    simp [bracket, hOpening, hClosing, hOutside] at hMem
  simp only [chars, List.mem_append, not_or]
  refine ⟨⟨hBrackets _ fun _ => List.mem_append_left _, fun hMem => ?_⟩,
    hBrackets _ fun _ => List.mem_append_right _⟩
  rcases Text.mem_intercalate hMem with hMem | ⟨filter, hFilter, hMem⟩
  · exact hComma (List.mem_singleton.mp hMem)
  · exact hFilters filter hFilter hMem

theorem Separated.semicolon_not_mem {s : Statement} (h : s.Separated) : ';' ∉ s.chars :=
  not_mem_chars (by decide) (fun name hName => (h.names name hName).2)
    fun filter hFilter => (h.filters filter hFilter).2.2.2

theorem Separated.body_ne_nil {s : Statement} (h : s.Separated) :
    [','].intercalate s.filters ≠ [] := by
  obtain ⟨first, rest, hFilters⟩ := List.exists_cons_of_ne_nil h.filters_ne
  have hFirst : first ≠ [] := (h.filters first (hFilters ▸ List.mem_cons_self)).1
  rw [hFilters]
  cases rest with
  | nil => simpa using hFirst
  | cons next rest => simp [List.intercalate_cons_cons]

theorem ofChars?_chars {s : Statement} (h : s.Separated) : ofChars? s.chars = some s := by
  have hInputs : ∀ name ∈ s.inputs, ']' ∉ name := fun name hName =>
    (h.names name (List.mem_append_left _ hName)).1
  have hOutputs : ∀ name ∈ s.outputs, ']' ∉ name := fun name hName =>
    (h.names name (List.mem_append_right _ hName)).1
  have hBody : ∀ c ∈ [','].intercalate s.filters, (c != '[') = true := fun c hc =>
    bne_iff_ne.mpr fun hBracket => h.bracket_not_mem (hBracket ▸ hc)
  have hHead : ([','].intercalate s.filters ++ s.outputs.flatMap bracket).head? ≠ some '[' := by
    obtain ⟨c, rest, hCons⟩ := List.exists_cons_of_ne_nil h.body_ne_nil
    rw [hCons] at hBody ⊢
    simpa using hBody c List.mem_cons_self
  have hNames : takeNames none (s.outputs.flatMap bracket) = some (s.outputs, []) := by
    simpa using @takeNames_brackets s.outputs hOutputs [] (by simp)
  -- The filters end where the first output begins, or with the text.
  have hOpens : (s.outputs.flatMap bracket).takeWhile (· != '[') = [] ∧
      (s.outputs.flatMap bracket).dropWhile (· != '[') = s.outputs.flatMap bracket := by
    cases s.outputs <;> simp [bracket]
  have hFilters : ([','].intercalate s.filters).splitOn ',' = s.filters :=
    List.splitOn_intercalate ',' (fun filter hFilter => (h.filters filter hFilter).2.2.1)
      h.filters_ne
  rw [ofChars?, chars, List.append_assoc, takeNames_brackets hInputs hHead]
  simp [List.takeWhile_append_of_pos hBody, List.dropWhile_append_of_pos hBody, hOpens, hNames,
    hFilters]

/-- Where every written item is read back, so is the list of them. -/
theorem mapM_map_eq_some {α β γ : Type} {write : α → β} {read : β → Option γ} {result : α → γ}
    {items : List α} (h : ∀ a ∈ items, read (write a) = some (result a)) :
    (items.map write).mapM read = some (items.map result) := by
  induction items with
  | nil => rfl
  | cons a items ih =>
      obtain ⟨ha, hItems⟩ := List.forall_mem_cons.mp h
      rw [List.map_cons, List.mapM_cons, ha, ih hItems]
      rfl

/-- Statements with semicolons between them are read back, none of them lost or torn apart. -/
theorem allOfChars?_intercalate {ss : List Statement} (h : ∀ s ∈ ss, s.Separated) :
    allOfChars? ([';'].intercalate (ss.map chars)) = some ss := by
  cases ss with
  | nil => rfl
  | cons s ss =>
      have hSplit : ([';'].intercalate ((s :: ss).map chars)).splitOn ';' = (s :: ss).map chars := by
        refine List.splitOn_intercalate ';' (fun text hText => ?_) (by simp)
        obtain ⟨s', hs', rfl⟩ := List.mem_map.mp hText
        exact (h s' hs').semicolon_not_mem
      have hText : [';'].intercalate ((s :: ss).map chars) ≠ [] := by
        intro hEmpty
        rw [hEmpty, List.splitOn_nil, List.map_cons] at hSplit
        have hChars : [','].intercalate s.filters = [] := by
          have hFirst := (List.cons.inj hSplit).1.symm
          rw [chars, List.append_eq_nil_iff, List.append_eq_nil_iff] at hFirst
          exact hFirst.1.2
        exact (h s List.mem_cons_self).body_ne_nil hChars
      rw [allOfChars?, if_neg (by simpa using hText), hSplit,
        mapM_map_eq_some fun s' hs' => ofChars?_chars (h s' hs'), List.map_id']

end Statement

end Diaporama
