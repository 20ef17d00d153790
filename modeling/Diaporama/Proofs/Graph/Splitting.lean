import Diaporama.Proofs.Graph.Expression

/-!
# Where the text of a graph falls apart

A text is split at semicolons into statements and each statement at its brackets and commas. No
filter found this way holds a separator, so the text of a graph falls apart into its nodes exactly
when none of its filters holds one.
-/

namespace Diaporama

/-! ## What a splitting finds -/

namespace Statement

/-- The statements of a text. A bracket that closes where none is open is refused. -/
def split? (cs : List Char) : Option (List Statement) :=
  (allOfChars? cs).filter fun ss => ss.all fun s => s.filters.all fun filter => !filter.contains ']'

theorem takeNames_subset {state : Option (List Char)} {cs : List Char} {names : List (List Char)}
    {rest : List Char} (h : takeNames state cs = some (names, rest)) : rest ⊆ cs := by
  induction cs generalizing state names rest with
  | nil =>
      cases state with
      | none =>
          cases h
          exact List.Subset.refl _
      | some begun => cases h
  | cons c cs ih =>
      cases state with
      | none =>
          rw [takeNames] at h
          split at h
          · exact List.subset_cons_of_subset c (ih h)
          · cases h
            exact List.Subset.refl _
      | some begun =>
          rw [takeNames] at h
          split at h
          · obtain ⟨⟨later, after⟩, hLater, hNames⟩ := Option.map_eq_some_iff.mp h
            cases hNames
            exact List.subset_cons_of_subset c (ih hLater)
          · exact List.subset_cons_of_subset c (ih h)

theorem filters_of_ofChars? {cs : List Char} {s : Statement} (h : ofChars? cs = some s) :
    ∀ filter ∈ s.filters, filter ⊆ cs ∧ '[' ∉ filter ∧ ',' ∉ filter := by
  obtain ⟨⟨inputs, body⟩, hInputs, h⟩ := Option.bind_eq_some_iff.mp h
  obtain ⟨⟨outputs, rest⟩, -, h⟩ := Option.bind_eq_some_iff.mp h
  dsimp only at h
  split at h
  · cases h
    intro filter hFilter
    obtain ⟨hComma, hSub⟩ := Text.of_mem_splitOn hFilter
    have hBody : filter ⊆ body := fun _ hc => List.takeWhile_subset _ (hSub hc)
    refine ⟨fun _ hc => takeNames_subset hInputs (hBody hc), fun hBracket => ?_, hComma⟩
    have hBefore := List.all_eq_true.mp List.all_takeWhile '[' (hSub hBracket)
    simp at hBefore
  · cases h

theorem mem_of_mapM_eq_some {α β : Type} {read : α → Option β} {xs : List α} {ys : List β}
    (h : xs.mapM read = some ys) : ∀ y ∈ ys, ∃ x ∈ xs, read x = some y := by
  induction xs generalizing ys with
  | nil =>
      cases h
      simp
  | cons x xs ih =>
      rw [List.mapM_cons] at h
      obtain ⟨y, hHead, h⟩ := Option.bind_eq_some_iff.mp h
      obtain ⟨later, hTail, h⟩ := Option.bind_eq_some_iff.mp h
      cases h
      intro z hz
      rcases List.mem_cons.mp hz with rfl | hz
      · exact ⟨x, List.mem_cons_self, hHead⟩
      · obtain ⟨x', hx', hRead⟩ := ih hTail z hz
        exact ⟨x', List.mem_cons_of_mem x hx', hRead⟩

theorem filters_of_allOfChars? {cs : List Char} {ss : List Statement}
    (h : allOfChars? cs = some ss) :
    ∀ s ∈ ss, ∀ filter ∈ s.filters, '[' ∉ filter ∧ ',' ∉ filter ∧ ';' ∉ filter := by
  rw [allOfChars?] at h
  split at h
  · cases h
    simp
  · intro s hs filter hFilter
    obtain ⟨part, hPart, hRead⟩ := mem_of_mapM_eq_some h s hs
    obtain ⟨hSub, hBracket, hComma⟩ := filters_of_ofChars? hRead filter hFilter
    exact ⟨hBracket, hComma, fun hMem => (Text.of_mem_splitOn hPart).1 (hSub hMem)⟩

theorem filters_of_split? {cs : List Char} {ss : List Statement} (h : split? cs = some ss) :
    ∀ s ∈ ss, ∀ filter ∈ s.filters, ∀ c ∈ separators, c ∉ filter := by
  obtain ⟨hRead, hClosed⟩ := Option.filter_eq_some_iff.mp h
  intro s hs filter hFilter
  obtain ⟨hBracket, hComma, hSemicolon⟩ := filters_of_allOfChars? hRead s hs filter hFilter
  have hClosing : ']' ∉ filter := by
    simpa using List.all_eq_true.mp (List.all_eq_true.mp hClosed s hs) filter hFilter
  simp [separators, hBracket, hClosing, hComma, hSemicolon]

theorem split?_intercalate {ss : List Statement} (h : ∀ s ∈ ss, s.Separated)
    (hClosed : ∀ s ∈ ss, ∀ filter ∈ s.filters, ']' ∉ filter) :
    split? ([';'].intercalate (ss.map chars)) = some ss := by
  rw [split?, allOfChars?_intercalate h]
  exact Option.filter_eq_some_iff.mpr ⟨rfl, by simpa using hClosed⟩

end Statement

/-! ## Graphs -/

/-- A filter can be told from what stands around it exactly when its text holds no separator. -/
theorem Filter.legible_iff {f : Filter Float} :
    f.Legible ↔ ∀ c ∈ separators, c ∉ f.text.toList := by
  refine ⟨fun h c hc => h.not_mem_text hc, fun h => ?_⟩
  intro pixels hPixels c hc hMem
  cases f with
  | format pixels' =>
      obtain rfl : pixels' = pixels := Option.some.inj hPixels
      refine h c hc ?_
      rw [toList_text]
      simp [mapTime, fields, hMem]
  | _ => cases hPixels

/-- The text of a graph with harmless links falls apart into its nodes exactly when every filter
is legible. -/
theorem Graph.Sound.split?_expression_iff {g : Graph Float} (hSound : g.Sound)
    (hLinks : ∀ link ∈ g.written, Text.Avoids linkSeparators link) :
    Statement.split? g.expression.toList = some (g.nodes.toList.map Node.parts) ↔
      ∀ n ∈ g.nodes, ∀ f ∈ n.filters, f.Legible := by
  constructor
  · intro h n hn f hf
    have hNode : n.parts ∈ g.nodes.toList.map Node.parts :=
      List.mem_map_of_mem (Array.mem_toList_iff.mpr hn)
    have hText : f.text.toList ∈ n.parts.filters := List.mem_map_of_mem hf
    exact Filter.legible_iff.mpr (Statement.filters_of_split? h n.parts hNode _ hText)
  · intro h
    rw [g.toList_expression]
    refine Statement.split?_intercalate (Legible.separated hSound ⟨hLinks, h⟩) ?_
    intro s hs filter hFilter
    obtain ⟨n, hn, rfl⟩ := List.mem_map.mp hs
    obtain ⟨f, hf, rfl⟩ := List.mem_map.mp hFilter
    exact Filter.legible_iff.mp (h n (Array.mem_toList_iff.mp hn) f hf) ']' (by decide)

end Diaporama
