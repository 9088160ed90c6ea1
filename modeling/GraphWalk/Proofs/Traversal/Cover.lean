import GraphWalk.Proofs.Graph.Refinement
import GraphWalk.Proofs.Traversal.Rows

/-!
A subgraph has every relationship between its nodes that the filter admits by type, once.

The relationships are collected node by node among those that leave the node. Each is stored under
its id and leaves one node only, so it is collected once if no node is listed twice.
-/

namespace GraphWalk

open Traversal

variable {g : Graph} {f : RelationshipFilter} {nodes : List NodeId} {node : NodeId}

/-- What a subgraph has to be: its nodes, each once, and all relationships between them of the types
that the filter admits, each once. -/
structure Graph.Spans (g : Graph) (f : RelationshipFilter) (s : Subgraph) : Prop where
  nodes : s.nodes.Nodup
  relationships : s.relationships.Nodup
  cover : ∀ id, id ∈ s.relationships ↔ ∃ r, g.relationship? id = some r ∧ r.source ∈ s.nodes ∧
    r.target ∈ s.nodes ∧ f.admitsType r.type = true

namespace Graph.Tracks

variable {p : PlainGraph}

lemma mem_incident_outgoing (h : g.Tracks p) {r : Relationship} :
    r ∈ g.incident node .outgoing ↔ g.relationship? r.id = some r ∧ r.source = node := by
  rw [h.incident_outgoing, h.relationship?_eq_some_iff]
  simp [PlainGraph.outgoing]

lemma pairwise_incident_outgoing (h : g.Tracks p) :
    (g.incident node .outgoing).Pairwise (·.id ≠ ·.id) := by
  rw [h.incident_outgoing]
  exact (List.pairwise_map.mp p.nodup_relationships).sublist List.filter_sublist

end Graph.Tracks

/-- Whether a relationship that leaves a node of a list belongs to the cover of the list. -/
def covers (f : RelationshipFilter) (nodes : List NodeId) (r : Relationship) : Bool :=
  decide (r.target ∈ nodes) && f.admitsType r.type

lemma cover_eq (g : Graph) (f : RelationshipFilter) (nodes : List NodeId) : cover g f nodes =
    nodes.flatMap fun node =>
      ((g.incident node .outgoing).filter (covers f nodes)).map Relationship.id := by
  have hmember : ∀ node : NodeId,
      (Std.TreeSet.ofList nodes : NodeSet).contains node = decide (node ∈ nodes) := by
    intro node
    rw [Std.TreeSet.contains_ofList, List.contains_eq_mem]
  rw [cover]
  congr 1
  funext node
  rw [← List.filterMap_eq_map, List.filterMap_filter]
  simp only [hmember, covers, Function.comp_apply]
  rfl

lemma mem_cover {id : RelId} : id ∈ cover g f nodes ↔ ∃ node ∈ nodes,
    ∃ r ∈ g.incident node .outgoing, covers f nodes r = true ∧ r.id = id := by
  simp [cover_eq, and_assoc]

namespace Graph.Tracks

variable {p : PlainGraph}

lemma mem_cover_iff (h : g.Tracks p) {id : RelId} : id ∈ cover g f nodes ↔ ∃ r,
    g.relationship? id = some r ∧ r.source ∈ nodes ∧ r.target ∈ nodes ∧
      f.admitsType r.type = true := by
  rw [mem_cover]
  constructor
  · rintro ⟨node, hnode, r, hr, hcovers, rfl⟩
    obtain ⟨hstored, rfl⟩ := h.mem_incident_outgoing.mp hr
    rw [covers, Bool.and_eq_true, decide_eq_true_iff] at hcovers
    exact ⟨r, hstored, hnode, hcovers⟩
  · rintro ⟨r, hstored, hsource, hcovers⟩
    obtain ⟨-, rfl⟩ := h.relationship?_eq_some_iff.mp hstored
    refine ⟨r.source, hsource, r, h.mem_incident_outgoing.mpr ⟨hstored, rfl⟩, ?_, rfl⟩
    rwa [covers, Bool.and_eq_true, decide_eq_true_iff]

lemma nodup_cover (h : g.Tracks p) (hnodes : nodes.Nodup) : (cover g f nodes).Nodup := by
  rw [cover_eq, List.nodup_flatMap]
  refine ⟨fun node _ => ?_, hnodes.imp fun {node node'} hne => ?_⟩
  · exact List.pairwise_map.mpr (h.pairwise_incident_outgoing.sublist List.filter_sublist)
  · -- a relationship that both nodes add would leave both
    refine List.disjoint_left.mpr fun id hid hid' => ?_
    obtain ⟨r, hr, rfl⟩ := List.mem_map.mp hid
    obtain ⟨r', hr', hsame⟩ := List.mem_map.mp hid'
    obtain ⟨hstored, hsource⟩ := h.mem_incident_outgoing.mp (List.mem_filter.mp hr).1
    obtain ⟨hstored', hsource'⟩ := h.mem_incident_outgoing.mp (List.mem_filter.mp hr').1
    rw [hsame, hstored, Option.some.injEq] at hstored'
    subst hstored'
    exact hne (hsource.symm.trans hsource')

end Graph.Tracks

lemma nodup_reached (out : Output) : out.reached.Nodup := by
  have hnodup : ((distinctBy id ∅ (out.paths.map Path.last)).map id).Nodup :=
    nodup_map_distinctBy ∅ _
  rwa [List.map_id] at hnodup

/-- **Cover**: a subgraph that is answered is the only row of the answer, and it spans its nodes. -/
theorem subgraphAll_spans_nodes {fuel : ℕ} {starts : List NodeId} {c : Config} {s : Subgraph}
    {found : List (Option Subgraph)} (hg : g.Reachable)
    (h : subgraphAll fuel g starts c = some (.ok found)) (hs : some s ∈ found) :
    found = [some s] ∧ g.Spans c.relationshipFilter s := by
  obtain ⟨p, hp⟩ := hg.exists_tracks
  obtain ⟨r, -, hr⟩ := Option.map_eq_some_iff.mp h
  rcases r with e | out
  · cases hr
  · cases hr
    dsimp only at hs ⊢
    rw [rows_spanned] at hs ⊢
    split_ifs at hs ⊢ with hempty
    · cases c.optional <;> simp [rows] at hs
    · obtain rfl : s = ⟨out.reached, cover g c.relationshipFilter out.reached⟩ := by
        simpa using hs
      exact ⟨rfl, nodup_reached out, hp.nodup_cover (nodup_reached out), fun id => hp.mem_cover_iff⟩

/-- Three nodes; the first two are joined twice one way and once back, by two types, and the second
one has a loop and is left for the third. -/
def Graph.looped : Graph := empty.after
  [.addNode [] [], .addNode [] [], .addNode [] [], .addRelationship ⟨0⟩ ⟨1⟩ "R",
    .addRelationship ⟨0⟩ ⟨1⟩ "R", .addRelationship ⟨1⟩ ⟨1⟩ "R", .addRelationship ⟨1⟩ ⟨0⟩ "S",
    .addRelationship ⟨1⟩ ⟨0⟩ "R", .addRelationship ⟨1⟩ ⟨2⟩ "R"]

/-- One step along one type: the parallel relationship, the loop and the one that leads back belong
to the subgraph, but neither the other type nor what leads out of it. -/
theorem subgraphAll_spans_nodes_looped :
    let c : Config := { relationshipFilter := ⟨[⟨some "R", .outgoing⟩]⟩, maxLevel := some 1 }
    ∃ found, subgraphAll 12 .looped [⟨0⟩] c = some (.ok found) ∧
      let s : Subgraph := ⟨[⟨0⟩, ⟨1⟩], [⟨0⟩, ⟨1⟩, ⟨2⟩, ⟨4⟩]⟩
      some s ∈ found ∧ found = [some s] ∧ Graph.looped.Spans c.relationshipFilter s := by
  intro c
  have hrun : subgraphAll 12 .looped [⟨0⟩] c =
      some (.ok [some ⟨[⟨0⟩, ⟨1⟩], [⟨0⟩, ⟨1⟩, ⟨2⟩, ⟨4⟩]⟩]) := by decide +kernel
  have hs := List.mem_singleton_self (some (Subgraph.mk [⟨0⟩, ⟨1⟩] [⟨0⟩, ⟨1⟩, ⟨2⟩, ⟨4⟩]))
  have hg : Graph.looped.Reachable := Graph.reachable_after_empty _
  exact ⟨_, hrun, hs, subgraphAll_spans_nodes hg hrun hs⟩

end GraphWalk
