import Mathlib.Data.List.Nodup
import Diaporama.Graph.Basic

/-!
# What a push asks for and what it does

The checks of a push read the two tables of the graph. `Fits` is their conjunction: a push goes
through exactly when the node fits, and then the tables change link by link as stated here.
-/

namespace Diaporama

variable {T : Type}

/-- What a node needs to be admitted to any graph over `k` encoder inputs. -/
structure Node.Formed (k : Nat) (n : Node T) : Prop where
  arity : ∃ first rest, n.filters = first :: rest ∧ n.inputs.length = first.arity
  outputs_ne : n.outputs ≠ []
  inRange : ∀ input stream, Pad.source input stream ∈ n.inputs → input < k

namespace Graph

/-- A node fits a graph: it is formed well, its label and its outputs are new, and the links it
reads are written, unread and all different. -/
structure Fits (g : Graph T) (n : Node T) : Prop where
  formed : n.Formed g.inputCount
  label_new : n.label ∉ g.labels
  reads_unread : ∀ link ∈ n.reads, g.links[link]? = some .unread
  reads_nodup : n.reads.Nodup
  outputs_new : ∀ link ∈ n.outputs, link ∉ g.links
  outputs_nodup : n.outputs.Nodup

theorem checkInputs_eq_ok_iff (g : Graph T) (node : String) (seen : List String) (pads : List Pad) :
    g.checkInputs node seen pads = .ok () ↔
      (∀ input stream, Pad.source input stream ∈ pads → input < g.inputCount) ∧
      (∀ link ∈ pads.filterMap Pad.link?, g.links[link]? = some .unread ∧ link ∉ seen) ∧
      (pads.filterMap Pad.link?).Nodup := by
  fun_induction checkInputs g node seen pads with
  | case1 => simp
  | case2 seen input stream pads hInput ih =>
      rw [ih]
      simp only [List.mem_cons, Pad.source.injEq, List.filterMap_cons, Pad.link?]
      refine and_congr_left fun _ => ⟨?_, fun h i s hMem => h i s (.inr hMem)⟩
      rintro h i s (⟨rfl, rfl⟩ | hMem)
      · exact hInput
      · exact h i s hMem
  | case3 seen input stream pads hInput =>
      simp only [reduceCtorEq, false_iff, not_and]
      intro h
      exact absurd (h input stream List.mem_cons_self) hInput
  | case4 seen name pads hState =>
      simp only [reduceCtorEq, false_iff, not_and]
      intro _ h
      have hName := (h name (by simp [Pad.link?])).1
      simp [hState] at hName
  | case5 seen name pads hState =>
      simp only [reduceCtorEq, false_iff, not_and]
      intro _ h
      have hName := (h name (by simp [Pad.link?])).1
      simp [hState] at hName
  | case6 seen name pads hState hSeen =>
      simp only [reduceCtorEq, false_iff, not_and]
      intro _ h
      exact absurd hSeen (h name (by simp [Pad.link?])).2
  | case7 seen name pads hState hSeen ih =>
      rw [ih]
      simp only [List.filterMap_cons, Pad.link?, List.mem_cons, reduceCtorEq, false_or,
        List.nodup_cons, not_or, forall_eq_or_imp, hState, hSeen, not_false_eq_true, true_and]
      constructor
      · rintro ⟨hInputs, hLinks, hNodup⟩
        exact ⟨hInputs, fun link hLink => ⟨(hLinks link hLink).1, (hLinks link hLink).2.2⟩,
          fun hName => (hLinks name hName).2.1 rfl, hNodup⟩
      · rintro ⟨hInputs, hLinks, hName, hNodup⟩
        refine ⟨hInputs, fun link hLink => ⟨(hLinks link hLink).1, ?_, (hLinks link hLink).2⟩, hNodup⟩
        rintro rfl
        exact hName hLink

theorem checkOutputs_eq_ok_iff (g : Graph T) (node : String) (seen names : List String) :
    g.checkOutputs node seen names = .ok () ↔
      (∀ name ∈ names, name ∉ g.links ∧ name ∉ seen) ∧ names.Nodup := by
  fun_induction checkOutputs g node seen names with
  | case1 => simp
  | case2 seen name names hUsed =>
      simp only [reduceCtorEq, false_iff, not_and]
      intro h
      have hName := h name List.mem_cons_self
      simp [hName] at hUsed
  | case3 seen name names hUsed ih =>
      simp only [Std.TreeMap.contains_iff_mem, Bool.or_eq_true, decide_eq_true_eq, not_or] at hUsed
      rw [ih]
      simp only [List.mem_cons, not_or, forall_eq_or_imp, List.nodup_cons]
      constructor
      · rintro ⟨hNames, hNodup⟩
        exact ⟨⟨hUsed, fun other hOther => ⟨(hNames other hOther).1, (hNames other hOther).2.2⟩⟩,
          fun hName => (hNames name hName).2.1 rfl, hNodup⟩
      · rintro ⟨⟨_, hNames⟩, hName, hNodup⟩
        refine ⟨fun other hOther => ⟨(hNames other hOther).1, ?_, (hNames other hOther).2⟩, hNodup⟩
        rintro rfl
        exact hName hOther

theorem check_eq_ok_iff (g : Graph T) (n : Node T) : g.check n = .ok () ↔ g.Fits n := by
  have hInputs := checkInputs_eq_ok_iff g n.label [] n.inputs
  have hOutputs := checkOutputs_eq_ok_iff g n.label [] n.outputs
  simp only [List.not_mem_nil, not_false_eq_true, and_true] at hInputs hOutputs
  unfold check
  constructor
  · intro h
    split at h
    · cases h
    rename_i hLabel
    split at h
    · cases h
    rename_i first rest hFilters
    split at h
    · cases h
    rename_i hArity
    split at h
    · cases h
    rename_i hEmpty
    cases hRead : g.checkInputs n.label [] n.inputs with
    | error violation =>
        rw [hRead] at h
        cases h
    | ok _ =>
        rw [hRead] at h
        obtain ⟨hRange, hUnread, hReads⟩ := hInputs.mp hRead
        obtain ⟨hNew, hNodup⟩ := hOutputs.mp h
        exact {
          formed := ⟨⟨first, rest, hFilters, not_not.mp hArity⟩, by simpa using hEmpty, hRange⟩
          label_new := by simpa using hLabel
          reads_unread := hUnread
          reads_nodup := hReads
          outputs_new := hNew
          outputs_nodup := hNodup }
  · intro h
    obtain ⟨first, rest, hFilters, hArity⟩ := h.formed.arity
    have hRead := hInputs.mpr ⟨h.formed.inRange, h.reads_unread, h.reads_nodup⟩
    have hWrite := hOutputs.mpr ⟨h.outputs_new, h.outputs_nodup⟩
    rw [if_neg (by simpa using h.label_new), hFilters]
    simp only [hArity, ne_eq, not_true_eq_false, if_false, List.isEmpty_iff, h.formed.outputs_ne,
      hRead, hWrite]
    rfl

theorem push_eq_ok_iff {g g' : Graph T} {n : Node T} :
    g.push n = .ok g' ↔ g.Fits n ∧ g' = g.insert n := by
  rw [← check_eq_ok_iff]
  cases hCheck : g.check n with
  | error violation => simp [push, hCheck, bind, Except.bind]
  | ok _ => simp [push, hCheck, bind, Except.bind, pure, Except.pure, eq_comm]

theorem getElem?_foldl_insert (names : List String) (state : LinkState)
    (links : Std.TreeMap String LinkState) (link : String) :
    (names.foldl (fun links name => links.insert name state) links)[link]? =
      if link ∈ names then some state else links[link]? := by
  induction names generalizing links with
  | nil => simp
  | cons name names ih =>
      rw [List.foldl_cons, ih, Std.TreeMap.getElem?_insert]
      by_cases hName : name = link
      · simp [hName]
      · have hLink : link ≠ name := fun h => hName h.symm
        simp [hName, hLink]

@[simp] theorem inputCount_insert (g : Graph T) (n : Node T) :
    (g.insert n).inputCount = g.inputCount := rfl

@[simp] theorem toList_nodes_insert (g : Graph T) (n : Node T) :
    (g.insert n).nodes.toList = g.nodes.toList ++ [n] := by
  simp [insert]

@[simp] theorem mem_labels_insert (g : Graph T) (n : Node T) (label : String) :
    label ∈ (g.insert n).labels ↔ label = n.label ∨ label ∈ g.labels := by
  simp only [insert, Std.TreeSet.mem_insert, Std.compare_eq_iff_eq]
  rw [eq_comm]

/-- A node opens the links it writes and closes those it reads; all others stay as they are. -/
theorem getElem?_links_insert (g : Graph T) (n : Node T) (link : String) :
    (g.insert n).links[link]? =
      if link ∈ n.outputs then some .unread
      else if link ∈ n.reads then some .consumed
      else g.links[link]? := by
  simp only [insert, getElem?_foldl_insert]

end Graph

end Diaporama
