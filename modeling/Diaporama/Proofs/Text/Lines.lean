import Diaporama.Proofs.Text.Characters

/-!
# Texts one to a line

A newline ends each line of a text. Texts that are written one to a line are read back exactly when
none of them holds a newline itself.
-/

namespace Diaporama.Text

/-- The lines of a text without their newlines; what no newline ends is no line. -/
def lines (s : String) : List String :=
  (s.toList.splitOn '\n').dropLast.map String.ofList

def unlines (texts : List String) : String :=
  String.join (texts.map (· ++ "\n"))

theorem avoids_of_mem_lines {s line : String} (h : line ∈ lines s) : Avoids ['\n'] line := by
  obtain ⟨part, hPart, rfl⟩ := List.mem_map.mp h
  have hNone := (of_mem_splitOn (List.dropLast_subset _ hPart)).1
  intro c hc
  rwa [List.mem_singleton.mp hc, String.toList_ofList]

/-- Behind the last newline there is one more part, which is empty. -/
theorem toList_unlines (texts : List String) :
    (unlines texts).toList = ['\n'].intercalate (texts.map String.toList ++ [[]]) := by
  induction texts with
  | nil => rfl
  | cons text texts ih =>
    have hMore : texts.map String.toList ++ [[]] ≠ [] := by simp
    obtain ⟨first, rest, hParts⟩ := List.exists_cons_of_ne_nil hMore
    have hCons : unlines (text :: texts) = text ++ "\n" ++ unlines texts := by
      simp [unlines, String.append_assoc]
    rw [hCons, String.toList_append, String.toList_append, ih, List.map_cons, List.cons_append,
      hParts, List.intercalate_cons_cons]
    rfl

theorem lines_unlines_iff {texts : List String} :
    lines (unlines texts) = texts ↔ ∀ text ∈ texts, Avoids ['\n'] text := by
  constructor
  · intro h text hText
    exact avoids_of_mem_lines (h ▸ hText)
  · intro h
    have hParts : ∀ part ∈ texts.map String.toList ++ [[]], '\n' ∉ part := by
      intro part hPart
      rcases List.mem_append.mp hPart with hPart | hPart
      · obtain ⟨text, hText, rfl⟩ := List.mem_map.mp hPart
        exact h text hText '\n' (List.mem_singleton_self _)
      · rw [List.mem_singleton.mp hPart]
        exact List.not_mem_nil
    rw [lines, toList_unlines, List.splitOn_intercalate '\n' hParts (by simp), List.dropLast_concat,
      List.map_map]
    simp

end Diaporama.Text
