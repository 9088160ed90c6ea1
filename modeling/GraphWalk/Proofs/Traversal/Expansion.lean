import GraphWalk.Proofs.Graph.Refinement
import GraphWalk.Proofs.Traversal.Walk

/-!
The relationships by which a node is left: each is stored, ends at the node and is admitted there.
-/

namespace GraphWalk

variable {g : Graph} {f : RelationshipFilter} {c : Config} {node : NodeId} {r : Relationship}

namespace Direction

lemma admits_outgoing_iff : outgoing.admits (r.directionFrom node) = true ↔ r.source = node := by
  by_cases hs : r.source = node <;> by_cases ht : r.target = node <;>
    simp [admits, Relationship.directionFrom, hs, ht]

lemma admits_incoming_iff (h : r.source = node ∨ r.target = node) :
    incoming.admits (r.directionFrom node) = true ↔ r.target = node := by
  by_cases hs : r.source = node <;> by_cases ht : r.target = node <;>
    simp_all [admits, Relationship.directionFrom]

end Direction

namespace Graph

lemma exists_relationship?_of_mem_incident {d : Direction} {type : Option String}
    (h : r ∈ g.incident node d type) : ∃ id, g.relationship? id = some r := by
  obtain ⟨id, -, hid⟩ := List.mem_filterMap.mp (List.mem_filter.mp h).1
  exact ⟨id, hid⟩

lemma Tracks.mem_incident {p : PlainGraph} (h : g.Tracks p) {d : Direction} {type : Option String}
    (hr : r ∈ g.incident node d type) :
    (r.source = node ∨ r.target = node) ∧ d.admits (r.directionFrom node) = true ∧
      type.all (· == r.type) = true := by
  have hout : r ∈ g.incident node .outgoing type →
      r.source = node ∧ type.all (· == r.type) = true := by
    rw [h.incident_outgoing]
    intro hmem
    simpa using (List.mem_filter.mp hmem).2
  have hin : r ∈ g.incident node .incoming type →
      r.target = node ∧ type.all (· == r.type) = true := by
    rw [h.incident_incoming]
    intro hmem
    simpa using (List.mem_filter.mp hmem).2
  cases d with
  | outgoing =>
    obtain ⟨hsource, htype⟩ := hout hr
    exact ⟨.inl hsource, Direction.admits_outgoing_iff.mpr hsource, htype⟩
  | incoming =>
    obtain ⟨htarget, htype⟩ := hin hr
    exact ⟨.inr htarget, (Direction.admits_incoming_iff (.inr htarget)).mpr htarget, htype⟩
  | both =>
    rw [incident_both, List.mem_append] at hr
    rcases hr with hr | hr
    · exact ⟨.inl (hout hr).1, rfl, (hout hr).2⟩
    · exact ⟨.inr (hin hr).1, rfl, (hin hr).2⟩

/-- The end points of the stored relationships. -/
def sites (g : Graph) : List NodeId :=
  g.relationships.toList.flatMap fun entry => [entry.2.source, entry.2.target]

lemma otherNode_mem_sites {id : RelId} (h : g.relationship? id = some r) (node : NodeId) :
    r.otherNode node ∈ g.sites := by
  refine List.mem_flatMap.mpr ⟨(id, r), Std.TreeMap.mem_toList_iff_getElem?_eq_some.mpr h, ?_⟩
  unfold Relationship.otherNode
  split <;> simp

end Graph

lemma RelationshipFilter.exists_query_of_mem_expand (h : r ∈ f.expand g node) :
    ∃ e ∈ f.queries, r ∈ g.incident node e.direction e.type :=
  List.mem_flatMap.mp (mem_of_mem_distinctBy h).1

lemma RelationshipFilter.admits_of_mem_expand {p : PlainGraph} (hg : g.Tracks p)
    (h : r ∈ f.expand g node) :
    (r.source = node ∨ r.target = node) ∧ f.admits r node = true := by
  obtain ⟨e, he, hr⟩ := exists_query_of_mem_expand h
  obtain ⟨hends, hdirection, htype⟩ := hg.mem_incident hr
  refine ⟨hends, ?_⟩
  rw [admits, Bool.or_eq_true]
  unfold queries at he
  split at he
  · exact .inl ‹_›
  · refine .inr (List.any_eq_true.mpr ⟨e, he, ?_⟩)
    rw [Entry.admits, Entry.admitsType, htype, hdirection, Bool.and_true]

namespace Config

lemma mem_expand_of_mem_offered (h : r ∈ c.offered g node) :
    r ∈ c.relationshipFilter.expand g node := by
  unfold offered sampled at h
  split at h
  · exact h
  · exact List.mem_of_mem_take h

lemma exists_offered_of_mem_nextHops {hop : Hop} (h : hop ∈ c.nextHops g node) :
    ∃ r ∈ c.offered g node, hop = ⟨r.id, r.otherNode node⟩ := by
  obtain ⟨r, hr, rfl⟩ := List.mem_map.mp h
  exact ⟨r, hr, rfl⟩

lemma exists_relationship?_of_mem_offered (h : r ∈ c.offered g node) :
    ∃ id, g.relationship? id = some r := by
  obtain ⟨e, -, hr⟩ := RelationshipFilter.exists_query_of_mem_expand (mem_expand_of_mem_offered h)
  exact Graph.exists_relationship?_of_mem_incident hr

end Config

end GraphWalk
