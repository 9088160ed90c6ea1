import GraphWalk.Proofs.Graph.Codec
import GraphWalk.Proofs.Graph.Snapshot

/-!
A graph that is written as JSON and read back.

What is read back is the graph with its records in order of their ids. So the adjacency lists come
back sorted, and they come back as they were if the store has numbered the relationships itself:
then every relationship has a larger id than those before it.
-/

namespace GraphWalk

namespace Graph

/-- The graph that the JSON of a snapshot is read back to; nothing if it cannot be decoded. -/
def reload (g : Graph) : Option (Except WalkError Graph) :=
  (Snapshot.ofJson? g.snapshot.toJson).map ofSnapshot

/-- Every id of the graph has a next one that can be written as a word. -/
structure FitsWords (g : Graph) : Prop where
  nodes : ∀ id n, g.node? id = some n → id.val + 1 < Word.unsignedLimit
  relationships : ∀ id r, g.relationship? id = some r → id.val + 1 < Word.unsignedLimit

/-- The second graph holds what the first one holds, with the relationships of each node by id. -/
structure Restores (g g' : Graph) : Prop where
  node : ∀ id, g'.node? id = g.node? id
  relationship : ∀ id, g'.relationship? id = g.relationship? id
  elementId : ∀ elementId, g'.nodeByElementId? elementId = g.nodeByElementId? elementId
  snapshot : g'.snapshot = g.snapshot
  outgoing : ∀ node type,
    g'.incident node .outgoing type = sortBy (·.id.val) (g.incident node .outgoing type)
  incoming : ∀ node type,
    g'.incident node .incoming type = sortBy (·.id.val) (g.incident node .incoming type)

variable {g g' : Graph} {p p' : PlainGraph}

lemma Reachable.fitsWords (hg : g.Reachable) (hnodes : g.nextNode < Word.unsignedLimit)
    (hrelationships : g.nextRelationship < Word.unsignedLimit) : g.FitsWords := by
  obtain ⟨p, hp⟩ := hg.exists_tracks
  refine ⟨fun id n hn => ?_, fun id r hr => ?_⟩
  · obtain ⟨hmem, rfl⟩ := hp.node?_eq_some_iff.mp hn
    exact lt_of_le_of_lt (hp.nextNode n hmem) hnodes
  · obtain ⟨hmem, rfl⟩ := hp.relationship?_eq_some_iff.mp hr
    exact lt_of_le_of_lt (hp.nextRelationship r hmem) hrelationships

lemma Tracks.restores (h : g.Tracks p) (h' : g'.Tracks p') (hs : p'.snapshot = p.snapshot.sorted) :
    g.Restores g' := by
  have hnodes : p'.nodes = sortBy (·.id.val) p.nodes := congrArg Snapshot.nodes hs
  have hrels : p'.relationships = sortBy (·.id.val) p.relationships :=
    congrArg Snapshot.relationships hs
  have hmemNode : ∀ n, n ∈ p'.nodes ↔ n ∈ p.nodes := fun n => by
    rw [hnodes, (sortBy_perm _ p.nodes).mem_iff]
  have hmemRel : ∀ r, r ∈ p'.relationships ↔ r ∈ p.relationships := fun r => by
    rw [hrels, (sortBy_perm _ p.relationships).mem_iff]
  refine ⟨fun id => ?_, fun id => ?_, fun elementId => ?_, ?_, fun node type => ?_,
    fun node type => ?_⟩
  · ext n
    rw [h.node?_eq_some_iff, h'.node?_eq_some_iff, hmemNode]
  · ext r
    rw [h.relationship?_eq_some_iff, h'.relationship?_eq_some_iff, hmemRel]
  · ext id
    refine (h'.elementIds elementId id).trans (Iff.trans ?_ (h.elementIds elementId id).symm)
    simp only [hmemNode]
  · rw [h.snapshot_eq, h'.snapshot_eq, hs, Snapshot.sorted_sorted]
  · rw [h.incident_outgoing, h'.incident_outgoing, PlainGraph.outgoing, hrels]
    exact filter_sortBy _ PlainGraph.relationship_eq_of_val_eq
  · rw [h.incident_incoming, h'.incident_incoming, PlainGraph.incoming, hrels]
    exact filter_sortBy _ PlainGraph.relationship_eq_of_val_eq

lemma Tracks.ofJson?_toJson_snapshot (h : g.Tracks p) (hw : g.FitsWords) :
    Snapshot.ofJson? g.snapshot.toJson = some g.snapshot := by
  have hnode : ∀ n ∈ p.nodes, n.id.val < Word.unsignedLimit := fun n hn =>
    Nat.lt_of_succ_lt (hw.nodes n.id n (h.node?_eq_some_iff.mpr ⟨hn, rfl⟩))
  have hend : ∀ id ∈ p.nodes.map Node.id, id.val < Word.unsignedLimit := by
    intro id hid
    obtain ⟨n, hn, rfl⟩ := List.mem_map.mp hid
    exact hnode n hn
  rw [h.snapshot_eq]
  refine Snapshot.ofJson?_toJson (fun n hn => ?_) fun r hr => ?_
  · exact hnode n ((sortBy_perm _ p.nodes).subset hn)
  · have hmem : r ∈ p.relationships := (sortBy_perm _ p.relationships).subset hr
    obtain ⟨hsource, htarget⟩ := p.closed r hmem
    exact ⟨Nat.lt_of_succ_lt
      (hw.relationships r.id r (h.relationship?_eq_some_iff.mpr ⟨hmem, rfl⟩)),
      hend _ hsource, hend _ htarget⟩

/-- Every graph whose ids are words can be reloaded, and what is read back restores it. -/
theorem Reachable.exists_reload (hg : g.Reachable) (hw : g.FitsWords) :
    ∃ g', g.reload = some (.ok g') ∧ g.Restores g' := by
  obtain ⟨p, hp⟩ := hg.exists_tracks
  have hwell : g.snapshot.WellFormed := by
    rw [hp.snapshot_eq]
    exact p.wellFormed_snapshot.sorted
  obtain ⟨g', hg'⟩ := exists_ofSnapshot hwell
  obtain ⟨p', hs, hp'⟩ := holds_of_ofSnapshot hg'
  refine ⟨g', ?_, hp.restores hp' (hs.trans hp.snapshot_eq)⟩
  rw [reload, hp.ofJson?_toJson_snapshot hw, Option.map_some, hg']

/-! ### Relationships that the store has numbered -/

/-- No relationship is inserted under an id of the caller's choice. -/
def NumbersRelationships (ops : List Operation) : Prop :=
  ∀ op ∈ ops, ∀ r, op ≠ .insertRelationship r

lemma eq_of_perform_addRelationship {source target : NodeId} {type : String} {id : RelId}
    (h : (g.perform (.addRelationship source target type)).1 = .relationship id) :
    id = ⟨g.nextRelationship⟩ := by
  rw [perform] at h
  rcases hadd : g.addRelationship source target type with e | added <;> rw [hadd] at h
  · cases h
  · cases h
    exact eq_nextRelationship_of_addRelationship hadd

lemma Tracks.pairwise_of_step (h : g.Tracks p) {op : Operation}
    (hstep : p.Step op (g.perform op).1 p') (hop : ∀ r, op ≠ .insertRelationship r)
    (hp : p.relationships.Pairwise (·.id.val ≤ ·.id.val)) :
    p'.relationships.Pairwise (·.id.val ≤ ·.id.val) := by
  generalize hreply : (g.perform op).1 = reply at hstep
  cases hstep with
  | addRelationship r hprops ho =>
    have hid : r.id = ⟨g.nextRelationship⟩ := eq_of_perform_addRelationship hreply
    refine List.pairwise_append.mpr ⟨hp, List.pairwise_singleton _ _, fun s hs t ht => ?_⟩
    rw [List.mem_singleton.mp ht, hid]
    exact Nat.le_of_lt (h.nextRelationship s hs)
  | insertRelationship r ho => exact absurd rfl (hop r)
  | removeNode id hid => exact hp.sublist List.filter_sublist
  | removeRelationship id hid => exact hp.sublist List.filter_sublist
  | _ => exact hp

theorem NumbersRelationships.exists_tracks {ops : List Operation} (h : NumbersRelationships ops) :
    ∃ p, (empty.after ops).Tracks p ∧ p.relationships.Pairwise (·.id.val ≤ ·.id.val) := by
  induction ops using List.reverseRecOn with
  | nil => exact ⟨.empty, tracks_empty, .nil⟩
  | append_singleton ops op ih =>
    obtain ⟨p, hp, hascending⟩ := ih fun o ho => h o (List.mem_append_left _ ho)
    obtain ⟨p', hstep, hp'⟩ := hp.perform op
    rw [after_append]
    exact ⟨p', hp', hp.pairwise_of_step hstep (h op (by simp)) hascending⟩

/-- Two graphs that show the same to whoever walks through them: their nodes, and at each node the
relationships in their order. -/
structure Alike (g g' : Graph) : Prop where
  node : ∀ id, g'.node? id = g.node? id
  incident : ∀ node d type, g'.incident node d type = g.incident node d type

/-- A graph whose relationships the store has numbered is restored in every order. -/
theorem Restores.alike {ops : List Operation} (h : (empty.after ops).Restores g')
    (hops : NumbersRelationships ops) : (empty.after ops).Alike g' := by
  obtain ⟨p, hp, hascending⟩ := hops.exists_tracks
  have hout : ∀ node type, g'.incident node .outgoing type =
      (empty.after ops).incident node .outgoing type := by
    intro node type
    rw [h.outgoing, hp.incident_outgoing]
    exact sortBy_of_pairwise (hascending.sublist List.filter_sublist)
  have hin : ∀ node type, g'.incident node .incoming type =
      (empty.after ops).incident node .incoming type := by
    intro node type
    rw [h.incoming, hp.incident_incoming]
    exact sortBy_of_pairwise (hascending.sublist List.filter_sublist)
  refine ⟨h.node, fun node d type => ?_⟩
  cases d with
  | outgoing => exact hout node type
  | incoming => exact hin node type
  | both => rw [incident_both, incident_both, hout, hin]

end Graph

end GraphWalk
