import Mathlib.Data.List.Basic

/-!
# Which characters a text holds

A reader of a longer text relies on what its parts are made of: characters of one class only, or
anything but a few separators.
-/

namespace Diaporama.Text

def Within (p : Char → Bool) (s : String) : Prop :=
  ∀ c ∈ s.toList, p c = true

def Avoids (cs : List Char) (s : String) : Prop :=
  ∀ c ∈ cs, c ∉ s.toList

instance (p : Char → Bool) (s : String) : Decidable (Within p s) :=
  List.decidableBAll _ _

instance (cs : List Char) (s : String) : Decidable (Avoids cs s) :=
  List.decidableBAll _ _

namespace Within

variable {p q : Char → Bool} {s t : String}

theorem append (hs : Within p s) (ht : Within p t) : Within p (s ++ t) := by
  intro c hc
  rw [String.toList_append, List.mem_append] at hc
  exact hc.elim (hs c) (ht c)

theorem of_subset (h : Within p s) {cs : List Char} (hSub : cs ⊆ s.toList) :
    Within p (String.ofList cs) := by
  intro c hc
  rw [String.toList_ofList] at hc
  exact h c (hSub hc)

theorem mono (h : Within p s) (hClass : ∀ c, p c = true → q c = true) : Within q s :=
  fun c hc => hClass c (h c hc)

theorem not_mem (h : Within p s) {c : Char} (hc : p c = false) : c ∉ s.toList := by
  intro hMem
  rw [h c hMem] at hc
  cases hc

theorem avoids (h : Within p s) {cs : List Char} (hcs : cs.any p = false) : Avoids cs s :=
  fun c hc => h.not_mem (Bool.eq_false_iff.mpr (List.any_eq_false.mp hcs c hc))

end Within

/-- What stands in joined parts stands in the separator or in a part. -/
theorem mem_intercalate {α : Type} {sep : List α} {parts : List (List α)} {a : α}
    (h : a ∈ sep.intercalate parts) : a ∈ sep ∨ ∃ part ∈ parts, a ∈ part := by
  induction parts with
  | nil => cases h
  | cons part parts ih =>
      cases parts with
      | nil => exact .inr ⟨part, List.mem_cons_self, by simpa using h⟩
      | cons next parts =>
          rw [List.intercalate_cons_cons, List.mem_append, List.mem_append] at h
          rcases h with (h | h) | h
          · exact .inr ⟨part, List.mem_cons_self, h⟩
          · exact .inl h
          · exact (ih h).imp_right fun ⟨other, hOther, ha⟩ =>
              ⟨other, List.mem_cons_of_mem _ hOther, ha⟩

/-- The parts of a split text hold no separator, and all they hold stood in the text. -/
theorem of_mem_splitOn {α : Type} [BEq α] [LawfulBEq α] {sep : α} {as part : List α}
    (h : part ∈ as.splitOn sep) : sep ∉ part ∧ part ⊆ as := by
  induction as generalizing part with
  | nil =>
      rw [List.splitOn_nil, List.mem_singleton] at h
      rw [h]
      exact ⟨List.not_mem_nil, List.Subset.refl _⟩
  | cons a as ih =>
      obtain ⟨first, rest, hSplit⟩ := List.exists_cons_of_ne_nil (List.splitOn_ne_nil sep as)
      rw [List.splitOn_cons_eq_if_modifyHead, hSplit] at h
      rw [hSplit] at ih
      split at h
      · rcases List.mem_cons.mp h with rfl | h
        · exact ⟨List.not_mem_nil, List.nil_subset _⟩
        · exact (ih h).imp_right (List.subset_cons_of_subset a)
      · rename_i hOther
        rcases List.mem_cons.mp h with rfl | h
        · obtain ⟨hSep, hSub⟩ := ih List.mem_cons_self
          have hHead : sep ≠ a := fun hEq => hOther (beq_iff_eq.mpr hEq.symm)
          exact ⟨List.not_mem_cons_of_ne_of_not_mem hHead hSep, List.cons_subset_cons a hSub⟩
        · exact (ih (List.mem_cons_of_mem _ h)).imp_right (List.subset_cons_of_subset a)

end Diaporama.Text
