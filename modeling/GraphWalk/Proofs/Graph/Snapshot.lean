import GraphWalk.Graph.Snapshot
import GraphWalk.Proofs.Graph.Refinement

/-!
What snapshots a graph can be made of, and what a snapshot has of a graph.

A snapshot is read into the store record by record, in whatever order it lists them. It is accepted
exactly if its lists are those of a plain graph, which the store tracks then; and whatever plain
graph a store tracks, its snapshot has the lists of that graph, sorted.
-/

namespace GraphWalk

/-! ### Sorted lists -/

section SortBy

variable {α : Type} {number : α → ℕ} {as bs : List α}

lemma sortBy_perm (number : α → ℕ) (as : List α) : (sortBy number as).Perm as :=
  List.mergeSort_perm as _

lemma pairwise_sortBy (number : α → ℕ) (as : List α) :
    (sortBy number as).Pairwise (number · ≤ number ·) := by
  have htrans : ∀ a b c : α, decide (number a ≤ number b) = true →
      decide (number b ≤ number c) = true → decide (number a ≤ number c) = true := by
    simp only [decide_eq_true_eq]
    exact fun _ _ _ => le_trans
  have htotal : ∀ a b : α,
      (decide (number a ≤ number b) || decide (number b ≤ number a)) = true := by
    simp only [Bool.or_eq_true, decide_eq_true_eq]
    exact fun a b => le_total _ _
  exact (List.pairwise_mergeSort htrans htotal as).imp of_decide_eq_true

lemma sortBy_of_pairwise (h : as.Pairwise (number · ≤ number ·)) : sortBy number as = as :=
  List.mergeSort_of_pairwise (h.imp fun hab => decide_eq_true hab)

lemma eq_sortBy (hperm : as.Perm bs) (hsorted : as.Pairwise (number · ≤ number ·))
    (hinj : ∀ a ∈ bs, ∀ b ∈ bs, number a = number b → a = b) : as = sortBy number bs := by
  refine List.Perm.eq_of_pairwise (fun a b ha hb hab hba => ?_) hsorted (pairwise_sortBy number bs)
    (hperm.trans (sortBy_perm number bs).symm)
  exact hinj a (hperm.subset ha) b ((sortBy_perm number bs).subset hb) (le_antisymm hab hba)

lemma sortBy_eq_of_perm (hperm : as.Perm bs)
    (hinj : ∀ a ∈ bs, ∀ b ∈ bs, number a = number b → a = b) :
    sortBy number as = sortBy number bs :=
  eq_sortBy ((sortBy_perm number as).trans hperm) (pairwise_sortBy number as) hinj

lemma filter_sortBy (f : α → Bool) (hinj : ∀ a ∈ as, ∀ b ∈ as, number a = number b → a = b) :
    (sortBy number as).filter f = sortBy number (as.filter f) := by
  refine eq_sortBy ((sortBy_perm number as).filter f)
    ((pairwise_sortBy number as).sublist List.filter_sublist) fun a ha b hb => ?_
  exact hinj a (List.mem_filter.mp ha).1 b (List.mem_filter.mp hb).1

end SortBy

/-! ### Loops that may fail -/

section Loop

variable {α β ε : Type} {insert : β → α → Except ε β} {R : β → List α → Prop} {b b' : β}
  {as bs cs : List α}

/-- A loop that does not fail has put in all of its list, behind what was there. -/
lemma holds_of_foldlM
    (hstep : ∀ b as a b', R b as → insert b a = .ok b' → R b' (as ++ [a]))
    (h : R b as) (hrun : bs.foldlM insert b = .ok b') : R b' (as ++ bs) := by
  induction bs generalizing b as with
  | nil =>
    cases hrun
    rwa [List.append_nil]
  | cons a bs ih =>
    rw [List.foldlM_cons] at hrun
    rcases hb : insert b a with e | b₁ <;> rw [hb] at hrun
    · cases hrun
    · have hall := ih (hstep b as a b₁ h hb) hrun
      rwa [List.append_assoc] at hall

/-- A loop fails for no list of which all parts can be put in. -/
lemma exists_foldlM
    (hstep : ∀ b as a b', R b as → insert b a = .ok b' → R b' (as ++ [a]))
    (hnext : ∀ b as a bs, R b as → cs = as ++ a :: bs → ∃ b', insert b a = .ok b')
    (h : R b as) (hcs : cs = as ++ bs) : ∃ b', bs.foldlM insert b = .ok b' := by
  induction bs generalizing b as with
  | nil => exact ⟨b, rfl⟩
  | cons a bs ih =>
    obtain ⟨b₁, hb⟩ := hnext b as a bs h hcs
    rw [List.foldlM_cons, hb]
    refine ih (hstep b as a b₁ h hb) ?_
    rw [hcs, List.append_assoc, List.singleton_append]

end Loop

/-! ### Well-formed snapshots -/

namespace Snapshot

/-- What a snapshot has to be for a graph to be made of it. -/
structure WellFormed (s : Snapshot) : Prop where
  nodup_ids : (s.nodes.map Node.id).Nodup
  named : ∀ n ∈ s.nodes, n.elementId ≠ ""
  nodup_elementIds : (s.nodes.map Node.elementId).Nodup
  nodup_relationships : (s.relationships.map Relationship.id).Nodup
  typed : ∀ r ∈ s.relationships, ValidType r.type
  closed : ∀ r ∈ s.relationships,
    r.source ∈ s.nodes.map Node.id ∧ r.target ∈ s.nodes.map Node.id

/-- The same nodes and relationships, ascending by id. -/
def sorted (s : Snapshot) : Snapshot :=
  ⟨sortBy (·.id.val) s.nodes, sortBy (·.id.val) s.relationships⟩

@[simp] lemma sorted_sorted (s : Snapshot) : s.sorted.sorted = s.sorted := by
  rw [sorted, sorted, sortBy_of_pairwise (pairwise_sortBy _ _),
    sortBy_of_pairwise (pairwise_sortBy _ _)]

variable {s : Snapshot}

lemma WellFormed.sorted (h : s.WellFormed) : s.sorted.WellFormed := by
  have hnodes : s.sorted.nodes.Perm s.nodes := sortBy_perm _ _
  have hrels : s.sorted.relationships.Perm s.relationships := sortBy_perm _ _
  refine ⟨(hnodes.map _).nodup_iff.mpr h.nodup_ids, fun n hn => h.named n (hnodes.subset hn),
    (hnodes.map _).nodup_iff.mpr h.nodup_elementIds, (hrels.map _).nodup_iff.mpr
      h.nodup_relationships, fun r hr => h.typed r (hrels.subset hr), fun r hr => ?_⟩
  obtain ⟨hsource, htarget⟩ := h.closed r (hrels.subset hr)
  exact ⟨(hnodes.map _).symm.subset hsource, (hnodes.map _).symm.subset htarget⟩

/-- The plain graph of a well-formed snapshot. -/
def WellFormed.plain (h : s.WellFormed) : PlainGraph :=
  ⟨s.nodes, s.relationships, h.nodup_ids, h.nodup_elementIds, h.named, h.nodup_relationships,
    h.closed, h.typed⟩

end Snapshot

namespace PlainGraph

variable {p : PlainGraph}

def snapshot (p : PlainGraph) : Snapshot := ⟨p.nodes, p.relationships⟩

lemma wellFormed_snapshot (p : PlainGraph) : p.snapshot.WellFormed :=
  ⟨p.nodup_ids, p.named, p.nodup_elementIds, p.nodup_relationships, p.typed, p.closed⟩

lemma node_eq_of_val_eq : ∀ n ∈ p.nodes, ∀ m ∈ p.nodes, n.id.val = m.id.val → n = m :=
  fun _ hn _ hm h => List.inj_on_of_nodup_map p.nodup_ids hn hm (NodeId.val_inj.mp h)

lemma relationship_eq_of_val_eq :
    ∀ r ∈ p.relationships, ∀ s ∈ p.relationships, r.id.val = s.id.val → r = s :=
  fun _ hr _ hs h => List.inj_on_of_nodup_map p.nodup_relationships hr hs (RelId.val_inj.mp h)

lemma flatMap_outgoing_perm {ids : List NodeId} (hids : ids.Perm p.ids) :
    (ids.flatMap fun id => p.outgoing id none).Perm p.relationships := by
  have hnodup : p.relationships.Nodup := .of_map _ p.nodup_relationships
  have hmem : ∀ id r, r ∈ p.outgoing id none ↔ r ∈ p.relationships ∧ r.source = id := by
    simp [outgoing]
  refine (List.perm_ext_iff_of_nodup (List.nodup_flatMap.mpr ⟨fun id _ => ?_, ?_⟩) hnodup).mpr
    fun r => ?_
  · exact hnodup.sublist List.filter_sublist
  · refine (hids.nodup_iff.mpr p.nodup_ids).imp fun {id id'} hne => ?_
    refine List.disjoint_left.mpr fun r hr hr' => hne ?_
    rw [← ((hmem id r).mp hr).2, ((hmem id' r).mp hr').2]
  · rw [List.mem_flatMap]
    constructor
    · rintro ⟨id, -, hr⟩
      exact ((hmem id r).mp hr).1
    · intro hr
      exact ⟨r.source, hids.symm.subset (p.closed r hr).1, (hmem _ r).mpr ⟨hr, rfl⟩⟩

lemma nodeObjection?_eq_none_of_nodes {q : PlainGraph} {n : Node} {ns : List Node}
    (h : q.nodes = p.nodes ++ n :: ns) : p.nodeObjection? n = none := by
  have hids := q.nodup_ids
  have helementIds := q.nodup_elementIds
  rw [h, List.map_append, List.nodup_append] at hids helementIds
  have hn : n ∈ q.nodes := by simp [h]
  refine nodeObjection?_eq_none_iff.mpr ⟨fun hid => ?_, q.named n hn, fun he => ?_⟩
  · exact hids.2.2 _ hid n.id (by simp) rfl
  · exact helementIds.2.2 _ he n.elementId (by simp) rfl

lemma relationshipObjection?_eq_none_of_relationships {q : PlainGraph} {r : Relationship}
    {rs : List Relationship} (hnodes : q.nodes = p.nodes)
    (h : q.relationships = p.relationships ++ r :: rs) : p.relationshipObjection? r = none := by
  have hids := q.nodup_relationships
  rw [h, List.map_append, List.nodup_append] at hids
  have hr : r ∈ q.relationships := by simp [h]
  obtain ⟨hsource, htarget⟩ := q.closed r hr
  rw [hnodes] at hsource htarget
  exact relationshipObjection?_eq_none_iff.mpr
    ⟨q.typed r hr, hsource, htarget, fun hid => hids.2.2 _ hid r.id (by simp) rfl⟩

end PlainGraph

namespace Graph

variable {g g' : Graph} {p : PlainGraph} {s : Snapshot}

namespace Tracks

/-! ### Capturing -/

lemma filterMap_node?_perm (h : g.Tracks p) : (g.nodeIds.filterMap g.node?).Perm p.nodes := by
  have hall : ∀ ns ⊆ p.nodes, (ns.map Node.id).filterMap g.node? = ns := by
    intro ns hsub
    induction ns with
    | nil => rfl
    | cons n ns ih =>
      obtain ⟨hn, hns⟩ := List.cons_subset.mp hsub
      rw [List.map_cons, List.filterMap_cons_some (h.node?_eq_some_iff.mpr ⟨hn, rfl⟩), ih hns]
  have hperm := h.agrees.nodeIds.filterMap g.node?
  rwa [PlainGraph.ids, hall p.nodes (List.Subset.refl _)] at hperm

lemma map_id_filterMap_node? (h : g.Tracks p) :
    (g.nodeIds.filterMap g.node?).map Node.id = g.nodeIds := by
  have hall : ∀ ids ⊆ g.nodeIds, (ids.filterMap g.node?).map Node.id = ids := by
    intro ids hsub
    induction ids with
    | nil => rfl
    | cons id ids ih =>
      obtain ⟨hid, hids⟩ := List.cons_subset.mp hsub
      obtain ⟨n, hn, rfl⟩ := List.mem_map.mp (h.agrees.nodeIds.subset hid)
      rw [List.filterMap_cons_some (h.node?_eq_some_iff.mpr ⟨hn, rfl⟩), List.map_cons, ih hids]
  exact hall _ (List.Subset.refl _)

/-- A snapshot has all nodes and relationships of the graph, sorted. -/
theorem snapshot_eq (h : g.Tracks p) : g.snapshot = p.snapshot.sorted := by
  have hascending : (g.nodeIds.filterMap g.node?).Pairwise (·.id.val ≤ ·.id.val) := by
    have hids := g.ascending_nodeIds
    rw [← h.map_id_filterMap_node?, List.pairwise_map] at hids
    exact hids.imp Nat.le_of_lt
  have hrels : ((g.nodeIds.filterMap g.node?).flatMap fun n => g.incident n.id .outgoing).Perm
      p.relationships := by
    have hflat := p.flatMap_outgoing_perm h.agrees.nodeIds
    rw [← h.map_id_filterMap_node?, List.flatMap_map] at hflat
    simpa only [h.incident_outgoing] using hflat
  rw [snapshot, Snapshot.sorted, Snapshot.mk.injEq]
  exact ⟨eq_sortBy h.filterMap_node?_perm hascending PlainGraph.node_eq_of_val_eq,
    sortBy_eq_of_perm hrels PlainGraph.relationship_eq_of_val_eq⟩

end Tracks

/-! ### Loading -/

/-- The store has the nodes and relationships of a snapshot and no others. -/
def Holds (g : Graph) (s : Snapshot) : Prop := ∃ p : PlainGraph, p.snapshot = s ∧ g.Tracks p

namespace Holds

lemma empty : Holds .empty ⟨[], []⟩ := ⟨.empty, rfl, tracks_empty⟩

lemma insertNode {n : Node} (h : g.Holds s) (hok : g.insertNode n = .ok g') :
    g'.Holds ⟨s.nodes ++ [n], s.relationships⟩ := by
  obtain ⟨p, rfl, hp⟩ := h
  rw [hp.insertNode] at hok
  rcases ho : p.nodeObjection? n with _ | e <;> rw [ho] at hok
  · cases hok
    exact ⟨p.putNode n ho, rfl, hp.putNode n ho⟩
  · cases hok

lemma insertRelationship {r : Relationship} (h : g.Holds s)
    (hok : g.insertRelationship r = .ok g') :
    g'.Holds ⟨s.nodes, s.relationships ++ [r]⟩ := by
  obtain ⟨p, rfl, hp⟩ := h
  rw [hp.insertRelationship] at hok
  rcases ho : p.relationshipObjection? r with _ | e <;> rw [ho] at hok
  · cases hok
    exact ⟨p.putRelationship r ho, rfl, hp.putRelationship r ho⟩
  · cases hok

lemma exists_insertNode {q : PlainGraph} {n : Node} {ns : List Node} (h : g.Holds s)
    (hq : q.nodes = s.nodes ++ n :: ns) : ∃ g', g.insertNode n = .ok g' := by
  obtain ⟨p, rfl, hp⟩ := h
  rw [hp.insertNode, PlainGraph.nodeObjection?_eq_none_of_nodes hq]
  exact ⟨_, rfl⟩

lemma exists_insertRelationship {q : PlainGraph} {r : Relationship} {rs : List Relationship}
    (h : g.Holds s) (hnodes : q.nodes = s.nodes)
    (hq : q.relationships = s.relationships ++ r :: rs) :
    ∃ g', g.insertRelationship r = .ok g' := by
  obtain ⟨p, rfl, hp⟩ := h
  rw [hp.insertRelationship, PlainGraph.relationshipObjection?_eq_none_of_relationships hnodes hq]
  exact ⟨_, rfl⟩

end Holds

lemma ofSnapshot_eq_ok_iff : ofSnapshot s = .ok g ↔
    ∃ g₀, s.nodes.foldlM insertNode empty = .ok g₀ ∧
      s.relationships.foldlM insertRelationship g₀ = .ok g := by
  unfold ofSnapshot
  rcases s.nodes.foldlM insertNode empty with e | g₀
  · simp [bind, Except.bind]
  · simp [bind, Except.bind]

lemma holds_of_foldlM_insertNode {ns : List Node}
    (h : ns.foldlM insertNode empty = .ok g) : g.Holds ⟨ns, []⟩ :=
  holds_of_foldlM (R := fun g ns => g.Holds ⟨ns, []⟩) (fun _ _ _ _ hg => hg.insertNode)
    Holds.empty h

/-- A graph that is made of a snapshot has the nodes and relationships of it and no others. -/
theorem holds_of_ofSnapshot (h : ofSnapshot s = .ok g) : g.Holds s := by
  obtain ⟨g₀, hnodes, hrels⟩ := ofSnapshot_eq_ok_iff.mp h
  exact holds_of_foldlM (R := fun g rs => g.Holds ⟨s.nodes, rs⟩)
    (fun _ _ _ _ hg => hg.insertRelationship) (holds_of_foldlM_insertNode hnodes) hrels

theorem exists_ofSnapshot (h : s.WellFormed) : ∃ g, ofSnapshot s = .ok g := by
  obtain ⟨g₀, hnodes⟩ : ∃ g₀, s.nodes.foldlM insertNode empty = .ok g₀ := by
    refine exists_foldlM (R := fun g ns => g.Holds ⟨ns, []⟩) (fun _ _ _ _ hg => hg.insertNode) ?_
      Holds.empty (List.nil_append _).symm
    exact fun _ _ _ _ hg hns => hg.exists_insertNode (q := h.plain) hns
  obtain ⟨g, hrels⟩ : ∃ g, s.relationships.foldlM insertRelationship g₀ = .ok g := by
    refine exists_foldlM (R := fun g rs => g.Holds ⟨s.nodes, rs⟩)
      (fun _ _ _ _ hg => hg.insertRelationship) ?_ (holds_of_foldlM_insertNode hnodes)
      (List.nil_append _).symm
    exact fun _ _ _ _ hg hrs => hg.exists_insertRelationship (q := h.plain) rfl hrs
  exact ⟨g, ofSnapshot_eq_ok_iff.mpr ⟨g₀, hnodes, hrels⟩⟩

/-- **Loading is exact**: a graph can be made of just the well-formed snapshots, in whatever order
they list their records, and nothing of such a snapshot is lost or added. -/
theorem ofSnapshot_is_exact (s : Snapshot) :
    ((∃ g, ofSnapshot s = .ok g) ↔ s.WellFormed) ∧
      ∀ g, ofSnapshot s = .ok g → g.snapshot = s.sorted ∧
        ∀ elementId id, g.nodeByElementId? elementId = some id ↔
          ∃ n ∈ s.nodes, n.elementId = elementId ∧ n.id = id := by
  refine ⟨⟨?_, exists_ofSnapshot⟩, fun g h => ?_⟩
  · rintro ⟨g, h⟩
    obtain ⟨p, rfl, -⟩ := holds_of_ofSnapshot h
    exact p.wellFormed_snapshot
  · obtain ⟨p, rfl, hp⟩ := holds_of_ofSnapshot h
    exact ⟨hp.snapshot_eq, hp.elementIds⟩

/-- A loop before another relationship that comes first by id. -/
theorem ofSnapshot_is_exact_unsorted :
    let s : Snapshot := ⟨[⟨⟨2⟩, "b", ["B"], []⟩, ⟨⟨1⟩, "a", [], []⟩],
      [⟨⟨7⟩, "R", ⟨2⟩, ⟨2⟩, []⟩, ⟨⟨3⟩, "S", ⟨1⟩, ⟨2⟩, []⟩]⟩
    s.WellFormed ∧ ∃ g, ofSnapshot s = .ok g ∧ g.snapshot = s.sorted := by
  intro s
  have hok : (ofSnapshot s).toOption.isSome = true := by decide +kernel
  obtain ⟨g, hg⟩ : ∃ g, ofSnapshot s = .ok g := by
    rcases h : ofSnapshot s with e | g
    · rw [h] at hok
      cases hok
    · exact ⟨g, rfl⟩
  obtain ⟨hiff, hexact⟩ := ofSnapshot_is_exact s
  exact ⟨hiff.mp ⟨g, hg⟩, g, hg, (hexact g hg).1⟩

end Graph

end GraphWalk
