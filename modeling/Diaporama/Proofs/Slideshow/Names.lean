import Mathlib.Data.List.Nodup
import Std.Data.String.ToNat
import Diaporama.Chain

/-!
# Generated names

Nodes and links are named by a stem and a number. Names of one stem differ by their numbers; names
of stems that begin with different letters differ whatever their numbers are.
-/

namespace Diaporama.Chain

theorem numbered_inj {stem : String} {i j : Nat} : numbered stem i = numbered stem j ↔ i = j := by
  constructor
  · intro h
    exact Nat.repr_injective ((String.append_right_inj stem).mp h)
  · rintro rfl
    rfl

theorem head?_numbered {stem : String} (hStem : stem ≠ "") (i : Nat) :
    (numbered stem i).toList.head? = stem.toList.head? := by
  have hList : stem.toList ≠ [] := fun h => hStem (String.toList_eq_nil_iff.mp h)
  rw [numbered, String.toList_append, List.head?_append_of_ne_nil _ hList]

theorem nodup_numbered (stem : String) (n : Nat) : ((List.range n).map (numbered stem)).Nodup :=
  List.nodup_range.map fun _ _ h => numbered_inj.mp h

/-- The names of several stems, each numbered from zero up to its own bound. -/
def names (families : List (String × Nat)) : List String :=
  families.flatMap fun family => (List.range family.2).map (numbered family.1)

theorem head?_of_mem_names {families : List (String × Nat)}
    (hStems : ∀ family ∈ families, family.1 ≠ "") {name : String} (h : name ∈ names families) :
    name.toList.head? ∈ families.map fun family => family.1.toList.head? := by
  obtain ⟨family, hFamily, hName⟩ := List.mem_flatMap.mp h
  obtain ⟨i, -, rfl⟩ := List.mem_map.mp hName
  rw [head?_numbered (hStems family hFamily)]
  exact List.mem_map.mpr ⟨family, hFamily, rfl⟩

theorem nodup_names {families : List (String × Nat)}
    (hStems : ∀ family ∈ families, family.1 ≠ "")
    (hHeads : (families.map fun family => family.1.toList.head?).Nodup) :
    (names families).Nodup := by
  induction families with
  | nil => exact List.nodup_nil
  | cons family families ih =>
      rw [List.forall_mem_cons] at hStems
      rw [List.map_cons, List.nodup_cons] at hHeads
      rw [names, List.flatMap_cons, List.nodup_append']
      refine ⟨nodup_numbered family.1 family.2, ih hStems.2 hHeads.2, ?_⟩
      intro name hFirst hRest
      have hHead := head?_of_mem_names hStems.2 hRest
      obtain ⟨i, -, rfl⟩ := List.mem_map.mp hFirst
      rw [head?_numbered hStems.1] at hHead
      exact hHeads.1 hHead

/-- Numbered names and one more name, all beginning with different letters. -/
theorem nodup_names_concat {families : List (String × Nat)} {last : String}
    (hStems : ∀ family ∈ families, family.1 ≠ "")
    (hHeads : ((families.map fun family => family.1.toList.head?) ++ [last.toList.head?]).Nodup) :
    (names families ++ [last]).Nodup := by
  rw [List.nodup_append'] at hHeads ⊢
  refine ⟨nodup_names hStems hHeads.1, List.nodup_singleton last, ?_⟩
  rintro name hName hLast
  rw [List.mem_singleton.mp hLast] at hName
  exact hHeads.2.2 (head?_of_mem_names hStems hName) (List.mem_singleton_self _)

end Diaporama.Chain
