import Diaporama.Proofs.Graph.Sink

/-!
# Pushing in another order

What a graph asks of the order of its nodes is only that links are written before they are read.
Nodes that go through in one order go through in every other order of that kind, and the graph they
leave ends and answers in the same way.
-/

namespace Diaporama

variable {T : Type}

namespace Node

variable {k : Nat} {ms ns : List (Node T)}

/-- All that is asked of wired nodes but their order is asked of each node and of all together. -/
theorem Wired.perm_iff (h : Wired k ns) (hPerm : ms.Perm ns) : Wired k ms ↔ Ordered [] ms := by
  refine ⟨Wired.ordered, fun hOrdered => ⟨fun m hm => ?_, ?_, ?_, ?_, hOrdered⟩⟩
  · exact h.formed m (hPerm.mem_iff.mp hm)
  · exact (hPerm.map _).nodup_iff.mpr h.labels_nodup
  · exact (hPerm.flatMap_right _).nodup_iff.mpr h.outputs_nodup
  · exact (hPerm.flatMap_right _).nodup_iff.mpr h.reads_nodup

/-- Nodes are in order when every link one of them reads is written by a node before it. -/
theorem ordered_nil_iff (ns : List (Node T)) :
    Ordered [] ns ↔ ∀ before n after, ns = before ++ n :: after →
      ∀ link, Pad.link link ∈ n.inputs → ∃ m ∈ before, link ∈ m.outputs := by
  rw [ordered_iff]
  simp only [List.nil_append, List.subset_def, mem_reads_iff, List.mem_flatMap]

end Node

namespace Graph

variable {g h : Graph T}

theorem written_perm (hPerm : g.nodes.toList.Perm h.nodes.toList) : g.written.Perm h.written :=
  hPerm.flatMap_right _

theorem read_perm (hPerm : g.nodes.toList.Perm h.nodes.toList) : g.read.Perm h.read :=
  hPerm.flatMap_right _

/-- What stands in the table of links follows from what is written and what is read. -/
theorem Sound.links_eq_of_mem_iff (hg : g.Sound) (hh : h.Sound)
    (hWritten : ∀ link, link ∈ g.written ↔ link ∈ h.written)
    (hRead : ∀ link, link ∈ g.read ↔ link ∈ h.read) (link : String) :
    g.links[link]? = h.links[link]? := by
  apply Option.ext
  intro state
  cases state with
  | unread => rw [hg.unread_iff, hh.unread_iff, hWritten, hRead]
  | consumed => rw [hg.consumed_iff, hh.consumed_iff, hRead]

theorem Sound.links_eq (hg : g.Sound) (hh : h.Sound)
    (hPerm : g.nodes.toList.Perm h.nodes.toList) (link : String) :
    g.links[link]? = h.links[link]? :=
  hg.links_eq_of_mem_iff hh (fun _ => (written_perm hPerm).mem_iff)
    (fun _ => (read_perm hPerm).mem_iff) link

theorem openLinks_eq_of_links (hLinks : ∀ link : String, g.links[link]? = h.links[link]?) :
    g.openLinks = h.openLinks := by
  have hEquiv : g.links.Equiv h.links := Std.TreeMap.Equiv.of_forall_constGet?_eq hLinks
  rw [openLinks, openLinks, hEquiv.toList_eq]

theorem validate_eq_of_openLinks (hOpen : g.openLinks = h.openLinks) (sink : String) :
    g.validate sink = h.validate sink := by
  rw [validate, validate, hOpen]

theorem Sound.producer?_eq (hg : g.Sound) (hh : h.Sound)
    (hPerm : g.nodes.toList.Perm h.nodes.toList) (link : String) :
    g.producer? link = h.producer? link := by
  apply Option.ext
  intro n
  rw [hg.producer?_eq_some_iff, hh.producer?_eq_some_iff, ← Array.mem_toList_iff, hPerm.mem_iff,
    Array.mem_toList_iff]

/-- Nodes that were pushed can be pushed in another order exactly when each still reads only what
nodes before it write, and then the graph has the same open links, ends in the same way in every
sink and has the same producer for every link. -/
theorem pushAll_reordered {k : Nat} {ns ms : List (Node T)}
    (hPush : (empty k : Graph T).pushAll ns = .ok g) (hPerm : ms.Perm ns) :
    ((∃ h, (empty k : Graph T).pushAll ms = .ok h) ↔
      ∀ before n after, ms = before ++ n :: after →
        ∀ link, Pad.link link ∈ n.inputs → ∃ m ∈ before, link ∈ m.outputs) ∧
    ∀ h, (empty k : Graph T).pushAll ms = .ok h →
      h.openLinks = g.openLinks ∧ (∀ sink, h.validate sink = g.validate sink) ∧
        ∀ link, h.producer? link = g.producer? link := by
  have hEmpty : (empty k : Graph T).Sound := sound_empty k
  obtain ⟨hWired, hg⟩ := hEmpty.pushAll_eq_ok_iff.mp hPush
  refine ⟨?_, fun h hOther => ?_⟩
  · rw [← Node.ordered_nil_iff, ← hWired.perm_iff hPerm]
    constructor
    · rintro ⟨h, hOther⟩
      exact (hEmpty.pushAll_eq_ok_iff.mp hOther).1
    · intro hOrdered
      exact ⟨_, hEmpty.pushAll_eq_ok_iff.mpr ⟨hOrdered, rfl⟩⟩
  · have hSound : g.Sound := hEmpty.of_pushAll hPush
    have hSoundOther : h.Sound := hEmpty.of_pushAll hOther
    have hNodes : h.nodes.toList.Perm g.nodes.toList := by
      rw [hg, (hEmpty.pushAll_eq_ok_iff.mp hOther).2, toList_nodes_insertAll,
        toList_nodes_insertAll]
      exact hPerm.append_left _
    have hOpen : h.openLinks = g.openLinks :=
      openLinks_eq_of_links (hSoundOther.links_eq hSound hNodes)
    exact ⟨hOpen, validate_eq_of_openLinks hOpen, hSoundOther.producer?_eq hSound hNodes⟩

/-- A stream that is split in two, with a filter on either branch before both are joined: the
branches may change places, but neither may come before the split. -/
theorem pushAll_reordered_branches :
    let split : Node Float := ⟨"s", .normalize, [.squarePixels], [.source 0 .video], ["l", "r"]⟩
    let left : Node Float := ⟨"a", .entrance, [.squarePixels], [.link "l"], ["x"]⟩
    let right : Node Float := ⟨"b", .entrance, [.squarePixels], [.link "r"], ["y"]⟩
    let join : Node Float :=
      ⟨"j", .transition, [.blend .fade 0.5 1.5], [.link "x", .link "y"], ["outv"]⟩
    ∃ g h, (empty 1).pushAll [split, left, right, join] = .ok g ∧
      (empty 1).pushAll [split, right, left, join] = .ok h ∧ h.openLinks = g.openLinks ∧
      ¬ ∃ h, (empty 1).pushAll [left, split, right, join] = .ok h := by
  intro split left right join
  have hWired : Node.Wired 1 [split, left, right, join] := by
    refine ⟨fun n hn => ?_, by decide, by decide, by decide, ?_⟩
    · simp only [List.mem_cons, List.not_mem_nil, or_false] at hn
      rcases hn with rfl | rfl | rfl | rfl <;>
        exact ⟨⟨_, _, rfl, rfl⟩, List.cons_ne_nil _ _, by simp [split, left, right, join]⟩
    · simp [Node.Ordered, Node.reads, Pad.link?, split, left, right, join]
  have hPush : (empty 1).pushAll [split, left, right, join] =
      .ok ((empty 1).insertAll [split, left, right, join]) :=
    (sound_empty 1).pushAll_eq_ok_iff.mpr ⟨hWired, rfl⟩
  obtain ⟨hOrder, hSame⟩ :=
    pushAll_reordered hPush ((List.Perm.swap left right [join]).cons split)
  obtain ⟨hEarly, -⟩ := pushAll_reordered hPush (.swap split left [right, join])
  have hBranches : Node.Ordered [] [split, right, left, join] := by
    simp [Node.Ordered, Node.reads, Pad.link?, split, left, right, join]
  have hBefore : ¬ Node.Ordered [] [left, split, right, join] := by
    simp [Node.Ordered, Node.reads, Pad.link?, left]
  obtain ⟨h, hOther⟩ := hOrder.mpr ((Node.ordered_nil_iff _).mp hBranches)
  refine ⟨_, h, hPush, hOther, (hSame h hOther).1, fun hExists => ?_⟩
  exact hBefore ((Node.ordered_nil_iff _).mpr (hEarly.mp hExists))

end Graph

end Diaporama
