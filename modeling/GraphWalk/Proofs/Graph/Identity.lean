import GraphWalk.Proofs.Graph.Refinement
import Mathlib.Logic.Function.Iterate

/-!
Identities over the whole history of a store.

Ids are handed out from counters that stay above the ids in the store and never go down, so no id
is handed out that was in use at any time before. Names are different: an element id is free again
once its node is gone, and a caller may have taken the one that is due. So the name of a new node
has to be searched for, and the search ends because there are only so many names in use.
-/

namespace GraphWalk

namespace Graph

variable {g g' g'' : Graph} {p : PlainGraph}

/-! ### Counters -/

/-- No counter goes down on the way from one graph to another. -/
structure CountsUp (g g' : Graph) : Prop where
  nextNode : g.nextNode ≤ g'.nextNode
  nextRelationship : g.nextRelationship ≤ g'.nextRelationship

namespace CountsUp

lemma refl (g : Graph) : g.CountsUp g := ⟨le_rfl, le_rfl⟩

lemma trans (h : g.CountsUp g') (h' : g'.CountsUp g'') : g.CountsUp g'' :=
  ⟨le_trans h.nextNode h'.nextNode, le_trans h.nextRelationship h'.nextRelationship⟩

end CountsUp

lemma countsUp_putNode (g : Graph) (n : Node) : g.CountsUp (g.putNode n) :=
  ⟨le_max_left _ _, le_rfl⟩

lemma countsUp_putRelationship (g : Graph) (r : Relationship) :
    g.CountsUp (g.putRelationship r) :=
  ⟨le_rfl, le_max_left _ _⟩

/-- What is taken out leaves its number behind. -/
lemma Tracks.countsUp_perform (h : g.Tracks p) (op : Operation) : g.CountsUp (g.perform op).2 := by
  cases op with
  | addNode labels properties => exact g.countsUp_putNode _
  | insertNode n =>
    rw [Graph.perform, h.insertNode]
    cases p.nodeObjection? n with
    | none => exact g.countsUp_putNode n
    | some e => exact .refl g
  | removeNode id =>
    rw [Graph.perform, Graph.removeNode?]
    cases g.node? id with
    | none => exact .refl g
    | some n => exact ⟨le_rfl, le_rfl⟩
  | addRelationship source target type =>
    rw [Graph.perform, addRelationship_eq, h.insertRelationship]
    cases p.relationshipObjection? ⟨⟨g.nextRelationship⟩, type, source, target, []⟩ with
    | none => exact g.countsUp_putRelationship _
    | some e => exact .refl g
  | insertRelationship r =>
    rw [Graph.perform, h.insertRelationship]
    cases p.relationshipObjection? r with
    | none => exact g.countsUp_putRelationship r
    | some e => exact .refl g
  | removeRelationship id =>
    rw [Graph.perform, Graph.removeRelationship?]
    cases g.relationship? id with
    | none => exact .refl g
    | some r => exact ⟨le_rfl, le_rfl⟩

lemma Tracks.countsUp_after (h : g.Tracks p) (ops : List Operation) : g.CountsUp (g.after ops) := by
  induction ops generalizing g p with
  | nil => exact .refl g
  | cons op ops ih =>
    obtain ⟨p', -, h'⟩ := h.perform op
    exact (h.countsUp_perform op).trans (ih h')

/-! ### What was in the store at any time -/

/-- The node was in the store at some moment of the history, the last one included. -/
def HadNode (ops : List Operation) (id : NodeId) : Prop :=
  ∃ before, before <+: ops ∧ ((empty.after before).node? id).isSome

def HadRelationship (ops : List Operation) (id : RelId) : Prop :=
  ∃ before, before <+: ops ∧ ((empty.after before).relationship? id).isSome

lemma exists_tracks_of_prefix {before ops : List Operation} (h : before <+: ops) :
    ∃ p, (empty.after before).Tracks p ∧ (empty.after before).CountsUp (empty.after ops) := by
  obtain ⟨p, hp⟩ := (reachable_after_empty before).exists_tracks
  obtain ⟨later, rfl⟩ := h
  refine ⟨p, hp, ?_⟩
  rw [after_append]
  exact hp.countsUp_after later

lemma lt_nextNode_of_hadNode {ops : List Operation} {id : NodeId} (h : HadNode ops id) :
    id.val < (empty.after ops).nextNode := by
  obtain ⟨before, hprefix, hsome⟩ := h
  obtain ⟨p, hp, hcounts⟩ := exists_tracks_of_prefix hprefix
  obtain ⟨n, hn⟩ := Option.isSome_iff_exists.mp hsome
  obtain ⟨hmem, rfl⟩ := hp.node?_eq_some_iff.mp hn
  exact lt_of_lt_of_le (hp.nextNode n hmem) hcounts.nextNode

lemma lt_nextRelationship_of_hadRelationship {ops : List Operation} {id : RelId}
    (h : HadRelationship ops id) : id.val < (empty.after ops).nextRelationship := by
  obtain ⟨before, hprefix, hsome⟩ := h
  obtain ⟨p, hp, hcounts⟩ := exists_tracks_of_prefix hprefix
  obtain ⟨r, hr⟩ := Option.isSome_iff_exists.mp hsome
  obtain ⟨hmem, rfl⟩ := hp.relationship?_eq_some_iff.mp hr
  exact lt_of_lt_of_le (hp.nextRelationship r hmem) hcounts.nextRelationship

/-! ### The search for a name -/

/-- While the name is taken an apostrophe is added to it: this is over after `rounds` rounds, and
leaves the given name. -/
structure NameSearch (taken : String → Bool) (first : String) (rounds : ℕ) (found : String) :
    Prop where
  found_eq : found = (· ++ "'")^[rounds] first
  goes_on : ∀ k < rounds, taken ((· ++ "'")^[k] first) = true
  stops : taken found = false

/-- A search that has as many rounds as it wants has gone on for as long as names were taken. -/
lemma exists_freshElementId_eq (taken : String → Bool) (tries : ℕ) (first : String) :
    ∃ rounds ≤ tries, freshElementId taken tries first = (· ++ "'")^[rounds] first ∧
      ∀ k < rounds, taken ((· ++ "'")^[k] first) = true := by
  induction tries generalizing first with
  | zero => exact ⟨0, le_rfl, rfl, fun k hk => absurd hk (Nat.not_lt_zero k)⟩
  | succ tries ih =>
    rw [freshElementId]
    split
    · next htaken =>
      obtain ⟨rounds, hle, heq, hgoes⟩ := ih (first ++ "'")
      refine ⟨rounds + 1, Nat.succ_le_succ hle, heq, fun k hk => ?_⟩
      cases k with
      | zero => exact htaken
      | succ k => exact hgoes k (Nat.lt_of_succ_lt_succ hk)
    · exact ⟨0, Nat.zero_le _, rfl, fun k hk => absurd hk (Nat.not_lt_zero k)⟩

lemma Tracks.exists_nameSearch (h : g.Tracks p) (first : String) :
    ∃ rounds ≤ g.nodeCount, NameSearch (fun e => (g.nodeByElementId? e).isSome) first rounds
      (freshElementId g.elementIds.contains g.elementIds.size first) := by
  have hcount : g.elementIds.size = g.nodeCount := by
    rw [h.elementIds.size_eq p.nodup_elementIds, h.agrees.nodeCount]
  have htaken : g.elementIds.contains = fun e => (g.nodeByElementId? e).isSome := by
    funext e
    exact Std.TreeMap.contains_eq_isSome_getElem?
  obtain ⟨rounds, hle, heq, hgoes⟩ :=
    exists_freshElementId_eq g.elementIds.contains g.elementIds.size first
  have hstops : g.elementIds.contains
      (freshElementId g.elementIds.contains g.elementIds.size first) = false := by
    refine not_taken_freshElementId g.elementIds.keys (fun e he _ => ?_) ?_
    · rwa [Std.TreeMap.mem_keys, Std.TreeMap.mem_iff_contains]
    · exact le_of_eq Std.TreeMap.length_keys
  rw [← htaken, ← hcount]
  exact ⟨rounds, hle, heq, hgoes, hstops⟩

/-! ### The books -/

/-- What holds of the identities in a store after a history. -/
structure KeepsBooks (ops : List Operation) (g : Graph) : Prop where
  lookup : ∀ e id, g.nodeByElementId? e = some id ↔ ∃ n, g.node? id = some n ∧ n.elementId = e
  nonempty : ∀ id n, g.node? id = some n → n.elementId ≠ ""
  distinct : ∀ id id' n n', g.node? id = some n → g.node? id' = some n' →
    n.elementId = n'.elementId → id = id'
  freshNode : ∀ labels properties id, HadNode ops id →
    id.val < (g.addNode labels properties).1.val
  freshName : ∀ labels properties, ∃ n,
    (g.addNode labels properties).2.node? (g.addNode labels properties).1 = some n ∧
      ∃ rounds ≤ g.nodeCount, NameSearch (fun e => (g.nodeByElementId? e).isSome)
        ("n:" ++ toString (g.addNode labels properties).1) rounds n.elementId
  freshRelationship : ∀ source target type added, g.addRelationship source target type = .ok added →
    ∀ id, HadRelationship ops id → id.val < added.1.val
  /-- A relationship is added if it can be, and it is never refused for its id. -/
  addable : ∀ source target type, (∃ added, g.addRelationship source target type = .ok added) ↔
    (g.node? source).isSome ∧ (g.node? target).isSome ∧ ValidType type
  notInUse : ∀ source target type id,
    g.addRelationship source target type ≠ .error (.invalidInput (.relationshipExists id))

lemma node?_addNode (g : Graph) (labels : List String) (properties : Json.Fields) :
    (g.addNode labels properties).2.node? (g.addNode labels properties).1 =
      some ⟨⟨g.nextNode⟩,
        freshElementId g.elementIds.contains g.elementIds.size
          ("n:" ++ toString (⟨g.nextNode⟩ : NodeId)), labels, properties⟩ := by
  simp [addNode, putNode, node?]

lemma Tracks.exists_addRelationship_iff (h : g.Tracks p) (source target : NodeId) (type : String) :
    (∃ added, g.addRelationship source target type = .ok added) ↔
      (g.node? source).isSome ∧ (g.node? target).isSome ∧ ValidType type := by
  rw [addRelationship_eq, h.insertRelationship, h.isSome_node?_iff, h.isSome_node?_iff]
  have hobjection := PlainGraph.relationshipObjection?_eq_none_iff (p := p)
    (r := ⟨⟨g.nextRelationship⟩, type, source, target, []⟩)
  have hfresh := h.nextRelationship_notMem
  cases ho : p.relationshipObjection? ⟨⟨g.nextRelationship⟩, type, source, target, []⟩ with
  | none =>
    obtain ⟨htype, hsource, htarget, -⟩ := hobjection.mp ho
    exact iff_of_true ⟨_, rfl⟩ ⟨hsource, htarget, htype⟩
  | some e =>
    refine iff_of_false (fun ⟨added, hadded⟩ => by cases hadded) fun ⟨hsource, htarget, htype⟩ => ?_
    rw [hobjection.mpr ⟨htype, hsource, htarget, hfresh⟩] at ho
    cases ho

lemma Tracks.addRelationship_ne_exists (h : g.Tracks p) (source target : NodeId) (type : String)
    (id : RelId) :
    g.addRelationship source target type ≠ .error (.invalidInput (.relationshipExists id)) := by
  have hfresh := h.nextRelationship_notMem
  rw [addRelationship_eq, h.insertRelationship]
  unfold PlainGraph.relationshipObjection?
  rw [if_neg hfresh]
  split_ifs <;> exact fun he => by cases he

/-- **Identities**: whatever was done to a store, its element ids lead to its nodes, new ids are
above all old ones, the name of a new node is found, and a relationship can be added wherever it
fits. -/
theorem identities_are_kept (ops : List Operation) : KeepsBooks ops (empty.after ops) := by
  obtain ⟨p, hp⟩ := (reachable_after_empty ops).exists_tracks
  have hlookup : ∀ e id, (empty.after ops).nodeByElementId? e = some id ↔
      ∃ n, (empty.after ops).node? id = some n ∧ n.elementId = e := by
    intro e id
    simp only [hp.node?_eq_some_iff]
    refine (hp.elementIds e id).trans ⟨?_, ?_⟩
    · rintro ⟨n, hn, he, hid⟩
      exact ⟨n, ⟨hn, hid⟩, he⟩
    · rintro ⟨n, ⟨hn, hid⟩, he⟩
      exact ⟨n, hn, he, hid⟩
  exact
    { lookup := hlookup
      nonempty := fun id n hn => p.named n (hp.node?_eq_some_iff.mp hn).1
      distinct := fun id id' n n' hn hn' he => by
        have h := (hlookup n.elementId id).mpr ⟨n, hn, rfl⟩
        have h' := (hlookup n.elementId id').mpr ⟨n', hn', he.symm⟩
        exact Option.some.inj (h.symm.trans h')
      freshNode := fun _ _ id hid => lt_nextNode_of_hadNode hid
      freshName := fun labels properties =>
        ⟨_, node?_addNode _ labels properties, hp.exists_nameSearch _⟩
      freshRelationship := fun source target type added hadded id hid => by
        rw [eq_nextRelationship_of_addRelationship hadded]
        exact lt_nextRelationship_of_hadRelationship hid
      addable := hp.exists_addRelationship_iff
      notInUse := hp.addRelationship_ne_exists }

/-- Two callers have taken the names that the next node would get. -/
example :
    let g := empty.after
      [.insertNode ⟨⟨6⟩, "n:7", [], []⟩, .insertNode ⟨⟨3⟩, "n:7'", [], []⟩, .removeNode ⟨6⟩,
        .insertNode ⟨⟨5⟩, "n:7", [], []⟩]
    (g.addNode [] []).2.node? ⟨7⟩ = some ⟨⟨7⟩, "n:7''", [], []⟩ := by
  decide +kernel

end Graph

end GraphWalk
