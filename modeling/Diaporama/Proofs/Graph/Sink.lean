import Mathlib.Data.List.Lattice
import Mathlib.Data.List.Pairwise
import Diaporama.Proofs.Graph.Sequence

/-!
# Open links and producers

In a sound graph the open links are those written and not read, and the producer of a link is the
one node that writes it.
-/

namespace Diaporama.Graph

variable {T : Type} {g : Graph T}

theorem mem_openLinks_iff (g : Graph T) (link : String) :
    link ∈ g.openLinks ↔ g.links[link]? = some .unread := by
  simp [openLinks]

theorem nodup_openLinks (g : Graph T) : g.openLinks.Nodup := by
  have hSub : List.Sublist g.openLinks g.links.keys := by
    rw [openLinks, ← Std.TreeMap.map_fst_toList_eq_keys]
    exact List.filter_sublist.map _
  exact hSub.nodup Std.TreeMap.nodup_keys

theorem validate_eq_ok_iff (g : Graph T) (sink : String) :
    g.validate sink = .ok () ↔ g.openLinks = [sink] := by
  unfold validate
  split
  · simp_all
  · rename_i only hOpen
    rw [hOpen]
    by_cases hOnly : only = sink <;> simp [hOnly]
  · rename_i hMany
    simp only [reduceCtorEq, false_iff]
    exact hMany sink

/-- In a sound graph the open links are those written and not read. -/
theorem Sound.mem_openLinks_iff (h : g.Sound) (link : String) :
    link ∈ g.openLinks ↔ link ∈ g.written ∧ link ∉ g.read := by
  rw [Graph.mem_openLinks_iff, h.unread_iff]

/-- A sound graph ends in a link exactly when that link is the only one written and not read. -/
theorem Sound.validate_eq_ok_iff (h : g.Sound) (sink : String) :
    g.validate sink = .ok () ↔ ∀ link, link ∈ g.written ∧ link ∉ g.read ↔ link = sink := by
  rw [Graph.validate_eq_ok_iff]
  simp only [← h.mem_openLinks_iff]
  constructor
  · intro hOpen link
    rw [hOpen, List.mem_singleton]
  · intro hOpen
    have hPerm : g.openLinks.Perm [sink] :=
      (List.perm_ext_iff_of_nodup (nodup_openLinks g) (List.nodup_singleton sink)).mpr
        fun link => by rw [hOpen, List.mem_singleton]
    exact List.perm_singleton.mp hPerm

/-- When all links but the sink are read, and each once, the graph ends in the sink. -/
theorem Sound.validate_of_perm (h : g.Sound) {sink : String}
    (hPerm : (g.read ++ [sink]).Perm g.written) : g.validate sink = .ok () := by
  have hNodup : (g.read ++ [sink]).Nodup := hPerm.nodup_iff.mpr h.wired.outputs_nodup
  have hSink : sink ∉ g.read := fun hRead =>
    (List.nodup_append'.mp hNodup).2.2 hRead (List.mem_singleton_self sink)
  rw [h.validate_eq_ok_iff]
  intro link
  rw [← hPerm.mem_iff, List.mem_append, List.mem_singleton]
  constructor
  · rintro ⟨hRead | rfl, hUnread⟩
    · exact absurd hRead hUnread
    · rfl
  · rintro rfl
    exact ⟨.inr rfl, hSink⟩

theorem Sound.eq_of_mem_outputs (h : g.Sound) {m n : Node T} {link : String} (hm : m ∈ g.nodes)
    (hn : n ∈ g.nodes) (hFirst : link ∈ m.outputs) (hSecond : link ∈ n.outputs) : m = n := by
  by_contra hne
  have hPairwise := (List.nodup_flatMap.mp h.wired.outputs_nodup).2
  have : Std.Symm (Function.onFun List.Disjoint (Node.outputs (T := T))) :=
    ⟨fun _ _ hDisjoint => List.Disjoint.symm hDisjoint⟩
  exact hPairwise.forall (Array.mem_toList_iff.mpr hm) (Array.mem_toList_iff.mpr hn) hne
    hFirst hSecond

theorem Sound.producer?_eq_some_iff (h : g.Sound) {link : String} {n : Node T} :
    g.producer? link = some n ↔ n ∈ g.nodes ∧ link ∈ n.outputs := by
  unfold producer?
  constructor
  · intro hFind
    exact ⟨Array.mem_of_find?_eq_some hFind, by simpa using Array.find?_some hFind⟩
  · rintro ⟨hn, hLink⟩
    have hSome : (g.nodes.find? fun n => n.outputs.contains link).isSome :=
      Array.find?_isSome.mpr ⟨n, hn, by simpa using hLink⟩
    obtain ⟨m, hFind⟩ := Option.isSome_iff_exists.mp hSome
    have hm : m ∈ g.nodes := Array.mem_of_find?_eq_some hFind
    have hLink' : link ∈ m.outputs := by simpa using Array.find?_some hFind
    rw [hFind, h.eq_of_mem_outputs hm hn hLink' hLink]

end Diaporama.Graph
