import Diaporama.Proofs.Graph.Wiring

/-!
# Sound graphs

A graph is sound when its two tables say of the nodes what is the case and the nodes are wired. The
empty graph is sound and every push keeps soundness, so it holds after any sequence of pushes, also
when some of them are refused.
-/

namespace Diaporama.Graph

variable {T : Type} {g g' : Graph T} {n : Node T}

def written (g : Graph T) : List String :=
  g.nodes.toList.flatMap Node.outputs

def read (g : Graph T) : List String :=
  g.nodes.toList.flatMap Node.reads

structure Sound (g : Graph T) : Prop where
  labels_iff : ∀ label, label ∈ g.labels ↔ label ∈ g.nodes.toList.map Node.label
  links_iff : ∀ link, link ∈ g.links ↔ link ∈ g.written
  consumed_iff : ∀ link, g.links[link]? = some .consumed ↔ link ∈ g.read
  wired : Node.Wired g.inputCount g.nodes.toList

@[simp] theorem written_insert (g : Graph T) (n : Node T) :
    (g.insert n).written = g.written ++ n.outputs := by
  simp [written]

@[simp] theorem read_insert (g : Graph T) (n : Node T) : (g.insert n).read = g.read ++ n.reads := by
  simp [read]

theorem mem_links_insert (g : Graph T) (n : Node T) (link : String) :
    link ∈ (g.insert n).links ↔ link ∈ n.outputs ∨ link ∈ n.reads ∨ link ∈ g.links := by
  rw [Std.TreeMap.mem_iff_isSome_getElem?, getElem?_links_insert,
    Std.TreeMap.mem_iff_isSome_getElem?]
  by_cases hOut : link ∈ n.outputs
  · simp [hOut]
  · by_cases hIn : link ∈ n.reads <;> simp [hOut, hIn]

theorem sound_empty (k : Nat) : (empty k : Graph T).Sound where
  labels_iff label := by simp [empty]
  links_iff link := by simp [empty, written]
  consumed_iff link := by simp [empty, read]
  wired := .nil k

theorem Sound.unread_iff (h : g.Sound) (link : String) :
    g.links[link]? = some .unread ↔ link ∈ g.written ∧ link ∉ g.read := by
  rw [← h.links_iff, ← h.consumed_iff, Std.TreeMap.mem_iff_isSome_getElem?]
  cases g.links[link]? with
  | none => simp
  | some state => cases state <;> simp

theorem Sound.read_subset_written (h : g.Sound) : g.read ⊆ g.written := by
  intro link hLink
  obtain ⟨n, hn, hRead⟩ := List.mem_flatMap.mp hLink
  exact h.wired.reads_subset hn hRead

/-- On a sound graph the checks of a push can be read off the nodes. -/
theorem Sound.fits_iff (h : g.Sound) :
    g.Fits n ↔ Node.Wired g.inputCount (g.nodes.toList ++ [n]) := by
  have hNew : ∀ link, link ∉ g.links ↔ link ∉ g.nodes.toList.flatMap Node.outputs :=
    fun link => not_congr (h.links_iff link)
  rw [Node.wired_concat_iff]
  constructor
  · intro hFits
    exact ⟨h.wired, hFits.formed, fun hOld => hFits.label_new ((h.labels_iff _).mpr hOld),
      fun link hLink => (h.unread_iff link).mp (hFits.reads_unread link hLink), hFits.reads_nodup,
      fun link hLink => (hNew link).mp (hFits.outputs_new link hLink), hFits.outputs_nodup⟩
  · rintro ⟨-, hFormed, hLabel, hLinks, hReads, hOutputs, hNodup⟩
    exact {
      formed := hFormed
      label_new := fun hOld => hLabel ((h.labels_iff _).mp hOld)
      reads_unread := fun link hLink => (h.unread_iff link).mpr (hLinks link hLink)
      reads_nodup := hReads
      outputs_new := fun link hLink => (hNew link).mpr (hOutputs link hLink)
      outputs_nodup := hNodup }

theorem Sound.insert (h : g.Sound) (hFits : g.Fits n) : (g.insert n).Sound where
  labels_iff label := by
    rw [mem_labels_insert, h.labels_iff, toList_nodes_insert, List.map_append, List.mem_append,
      List.map_singleton, List.mem_singleton, or_comm]
  links_iff link := by
    have hRead : link ∈ n.reads → link ∈ g.written := fun hLink =>
      ((h.unread_iff link).mp (hFits.reads_unread link hLink)).1
    rw [mem_links_insert, h.links_iff, written_insert, List.mem_append]
    tauto
  consumed_iff link := by
    rw [getElem?_links_insert, read_insert, List.mem_append, ← h.consumed_iff]
    by_cases hOut : link ∈ n.outputs
    -- The new entry stands as unread, which is right: a link that is new has no reader yet.
    · have hNew := hFits.outputs_new link hOut
      have hUnread : link ∉ n.reads := fun hIn =>
        hNew ((h.links_iff link).mpr ((h.unread_iff link).mp (hFits.reads_unread link hIn)).1)
      simp [hOut, hUnread, Std.TreeMap.getElem?_eq_none hNew]
    · by_cases hIn : link ∈ n.reads <;> simp [hOut, hIn]
  wired := by
    rw [toList_nodes_insert]
    exact h.fits_iff.mp hFits

/-! ## Sequences of pushes -/

def offer (g : Graph T) (n : Node T) : Graph T :=
  match g.push n with
  | .ok next => next
  | .error _ => g

/-- The graph after a sequence of pushes, each of which may be refused. -/
def offerAll (g : Graph T) (ns : List (Node T)) : Graph T :=
  ns.foldl offer g

theorem offer_eq (g : Graph T) (n : Node T) :
    g.Fits n ∧ g.offer n = g.insert n ∨ ¬ g.Fits n ∧ g.offer n = g := by
  unfold offer
  cases hPush : g.push n with
  | ok next =>
      obtain ⟨hFits, rfl⟩ := push_eq_ok_iff.mp hPush
      exact .inl ⟨hFits, rfl⟩
  | error violation =>
      refine .inr ⟨fun hFits => ?_, rfl⟩
      rw [push_eq_ok_iff.mpr ⟨hFits, rfl⟩] at hPush
      cases hPush

theorem Sound.offer (h : g.Sound) (n : Node T) : (g.offer n).Sound := by
  obtain ⟨hFits, hOffer⟩ | ⟨-, hOffer⟩ := offer_eq g n
  · rw [hOffer]
    exact h.insert hFits
  · rw [hOffer]
    exact h

theorem inputCount_offer (g : Graph T) (n : Node T) : (g.offer n).inputCount = g.inputCount := by
  obtain ⟨-, hOffer⟩ | ⟨-, hOffer⟩ := offer_eq g n <;> rw [hOffer]
  rfl

theorem Sound.offerAll (h : g.Sound) (ns : List (Node T)) : (g.offerAll ns).Sound := by
  induction ns generalizing g with
  | nil => exact h
  | cons n ns ih => exact ih (h.offer n)

theorem inputCount_offerAll (g : Graph T) (ns : List (Node T)) :
    (g.offerAll ns).inputCount = g.inputCount := by
  induction ns generalizing g with
  | nil => rfl
  | cons n ns ih => exact (ih (g.offer n)).trans (inputCount_offer g n)

/-- After any pushes, accepted or refused, the tables agree with the nodes, nothing is defined or
read twice, and every node is well formed and reads only what earlier nodes write. -/
theorem offerAll_bookkeeping (k : Nat) (offered : List (Node T)) :
    let g := (empty k : Graph T).offerAll offered
    ((∀ label, label ∈ g.labels ↔ ∃ n ∈ g.nodes, n.label = label) ∧
      (∀ link, link ∈ g.links ↔ ∃ n ∈ g.nodes, link ∈ n.outputs) ∧
      ∀ link, g.links[link]? = some .consumed ↔ ∃ n ∈ g.nodes, Pad.link link ∈ n.inputs) ∧
    ((g.nodes.toList.map Node.label).Nodup ∧ (g.nodes.toList.flatMap Node.outputs).Nodup) ∧
    ((∀ before n after, g.nodes.toList = before ++ n :: after →
        ∀ link, Pad.link link ∈ n.inputs → ∃ m ∈ before, link ∈ m.outputs) ∧
      (g.nodes.toList.flatMap fun n => n.inputs.filterMap Pad.link?).Nodup) ∧
    (∀ n ∈ g.nodes, ∀ input stream, Pad.source input stream ∈ n.inputs → input < k) ∧
    ∀ n ∈ g.nodes, ∃ first rest,
      n.filters = first :: rest ∧ n.outputs ≠ [] ∧ n.inputs.length = first.arity := by
  intro g
  have hSound : g.Sound := (sound_empty k).offerAll offered
  have hCount : g.inputCount = k := inputCount_offerAll _ _
  have hFormed : ∀ n ∈ g.nodes, n.Formed k := fun n hn =>
    hCount ▸ hSound.wired.formed n (Array.mem_toList_iff.mpr hn)
  refine ⟨⟨fun label => ?_, fun link => ?_, fun link => ?_⟩,
    ⟨hSound.wired.labels_nodup, hSound.wired.outputs_nodup⟩,
    ⟨fun before n after hNodes link hLink => ?_, hSound.wired.reads_nodup⟩,
    fun n hn => (hFormed n hn).inRange, fun n hn => ?_⟩
  · simp [hSound.labels_iff]
  · simp [hSound.links_iff, written]
  · simp [hSound.consumed_iff, read, Node.mem_reads_iff]
  · have hOrdered := (Node.ordered_iff [] _).mp hSound.wired.ordered before n after hNodes
    simpa using hOrdered (Node.mem_reads_iff.mpr hLink)
  · obtain ⟨first, rest, hFilters, hArity⟩ := (hFormed n hn).arity
    exact ⟨first, rest, hFilters, (hFormed n hn).outputs_ne, hArity⟩

end Diaporama.Graph
