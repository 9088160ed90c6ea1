import GraphWalk.Proofs.Graph.Adjacency
import GraphWalk.Proofs.Graph.History
import GraphWalk.Proofs.Graph.Index
import GraphWalk.Proofs.Graph.Plain
import Mathlib.Data.List.Induction

/-!
The store refines a plain graph.

A store keeps nodes, relationships and element ids by key, two tables of adjacency lists and two
counters. `Tracks` says what all of these have to do with a plain graph; every operation keeps
it, so whatever was done to a store before, it answers every question as a plain graph would.
-/

namespace GraphWalk

def Relationship.link (r : Relationship) : Link := ⟨r.id, r.source, r.target⟩

/-! ### What an operation may do -/

namespace PlainGraph

/-- What a plain graph may answer to an operation, and what becomes of it. -/
inductive Step (p : PlainGraph) : Graph.Operation → Graph.Reply → PlainGraph → Prop where
  | addNode (n : Node) (h : p.nodeObjection? n = none) :
    Step p (.addNode n.labels n.properties) (.node n.id) (p.putNode n h)
  | insertNode (n : Node) (h : p.nodeObjection? n = none) :
    Step p (.insertNode n) .stored (p.putNode n h)
  | refuseNode (n : Node) (e : WalkError) (h : p.nodeObjection? n = some e) :
    Step p (.insertNode n) (.refused e) p
  | removeNode (id : NodeId) (h : id ∈ p.ids) :
    Step p (.removeNode id) (.removed true) (p.eraseNode id)
  | missNode (id : NodeId) (h : id ∉ p.ids) : Step p (.removeNode id) (.removed false) p
  | addRelationship (r : Relationship) (hp : r.properties = [])
    (h : p.relationshipObjection? r = none) :
    Step p (.addRelationship r.source r.target r.type) (.relationship r.id) (p.putRelationship r h)
  | refuseAdd (source target : NodeId) (type : String) (e : WalkError)
    (h : ∀ id, p.relationshipObjection? ⟨id, type, source, target, []⟩ = some e) :
    Step p (.addRelationship source target type) (.refused e) p
  | insertRelationship (r : Relationship) (h : p.relationshipObjection? r = none) :
    Step p (.insertRelationship r) .stored (p.putRelationship r h)
  | refuseRelationship (r : Relationship) (e : WalkError)
    (h : p.relationshipObjection? r = some e) : Step p (.insertRelationship r) (.refused e) p
  | removeRelationship (id : RelId) (h : id ∈ p.relationships.map Relationship.id) :
    Step p (.removeRelationship id) (.removed true) (p.eraseRelationship id)
  | missRelationship (id : RelId) (h : id ∉ p.relationships.map Relationship.id) :
    Step p (.removeRelationship id) (.removed false) p

end PlainGraph

namespace Graph

variable {g : Graph} {p : PlainGraph}

/-- Every question to the store has the answer that the plain graph gives. -/
structure Agrees (g : Graph) (p : PlainGraph) : Prop where
  node : ∀ id, g.node? id = p.node? id
  relationship : ∀ id, g.relationship? id = p.relationship? id
  nodeCount : g.nodeCount = p.nodes.length
  relationshipCount : g.relationshipCount = p.relationships.length
  nodeIds : g.nodeIds.Perm p.ids
  ascending : g.nodeIds.Pairwise (·.val < ·.val)
  outgoing : ∀ node type, g.incident node .outgoing type = p.outgoing node type
  incoming : ∀ node type, g.incident node .incoming type = p.incoming node type
  both : ∀ node type,
    g.incident node .both type = p.outgoing node type ++ p.incoming node type

/-- The tables and counters of the store fit the plain graph. -/
structure Tracks (g : Graph) (p : PlainGraph) : Prop where
  nodes : Indexes g.nodes p.nodes Node.id fun n => n
  relationships : Indexes g.relationships p.relationships Relationship.id fun r => r
  elementIds : Indexes g.elementIds p.nodes Node.elementId Node.id
  adjacency : g.adjacency.Shows (p.relationships.map Relationship.link)
  nextNode : ∀ n ∈ p.nodes, n.id.val < g.nextNode
  nextRelationship : ∀ r ∈ p.relationships, r.id.val < g.nextRelationship

lemma tracks_empty : empty.Tracks .empty where
  nodes := indexes_empty
  relationships := indexes_empty
  elementIds := indexes_empty
  adjacency := Adjacency.shows_empty
  nextNode := by simp [PlainGraph.empty]
  nextRelationship := by simp [PlainGraph.empty]

/-! ### Questions -/

namespace Tracks

lemma node?_eq_some_iff (h : g.Tracks p) {id : NodeId} {n : Node} :
    g.node? id = some n ↔ n ∈ p.nodes ∧ n.id = id := by
  refine (h.nodes id n).trans ?_
  constructor
  · rintro ⟨m, hm, hk, rfl⟩
    exact ⟨hm, hk⟩
  · rintro ⟨hn, hk⟩
    exact ⟨n, hn, hk, rfl⟩

lemma relationship?_eq_some_iff (h : g.Tracks p) {id : RelId} {r : Relationship} :
    g.relationship? id = some r ↔ r ∈ p.relationships ∧ r.id = id := by
  refine (h.relationships id r).trans ?_
  constructor
  · rintro ⟨s, hs, hk, rfl⟩
    exact ⟨hs, hk⟩
  · rintro ⟨hr, hk⟩
    exact ⟨r, hr, hk, rfl⟩

lemma node? (h : g.Tracks p) (id : NodeId) : g.node? id = p.node? id := by
  ext n
  rw [h.node?_eq_some_iff, PlainGraph.node?_eq_some_iff]

lemma relationship? (h : g.Tracks p) (id : RelId) : g.relationship? id = p.relationship? id := by
  ext r
  rw [h.relationship?_eq_some_iff, PlainGraph.relationship?_eq_some_iff]

lemma isSome_node?_iff (h : g.Tracks p) (id : NodeId) : (g.node? id).isSome ↔ id ∈ p.ids := by
  rw [Option.isSome_iff_exists, PlainGraph.ids, List.mem_map]
  exact exists_congr fun n => h.node?_eq_some_iff

lemma filterMap_relationship? (h : g.Tracks p) {rs : List Relationship}
    (hr : ∀ r ∈ rs, r ∈ p.relationships) :
    (rs.map Relationship.id).filterMap g.relationship? = rs := by
  induction rs with
  | nil => rfl
  | cons r rs ih =>
    have hget : g.relationship? r.id = some r :=
      h.relationship?_eq_some_iff.mpr ⟨hr r List.mem_cons_self, rfl⟩
    rw [List.map_cons, List.filterMap_cons_some hget,
      ih fun s hs => hr s (List.mem_cons_of_mem r hs)]

lemma outgoing (h : g.Tracks p) (node : NodeId) : g.adjacency.outgoing node =
    (p.relationships.filter (·.source = node)).map Relationship.id := by
  rw [h.adjacency.outgoing, List.filter_map, List.map_map]
  rfl

lemma incoming (h : g.Tracks p) (node : NodeId) : g.adjacency.incoming node =
    (p.relationships.filter (·.target = node)).map Relationship.id := by
  rw [h.adjacency.incoming, List.filter_map, List.map_map]
  rfl

lemma incident_outgoing (h : g.Tracks p) (node : NodeId) (type : Option String) :
    g.incident node .outgoing type = p.outgoing node type := by
  have hinc : g.adjacency.incident node .outgoing = g.adjacency.outgoing node := by
    simp [Adjacency.incident, Direction.includesOutgoing, Direction.includesIncoming]
  rw [Graph.incident, hinc, h.outgoing,
    h.filterMap_relationship? fun r hr => (List.mem_filter.mp hr).1, List.filter_filter]
  refine List.filter_congr fun r _ => ?_
  simp [Bool.and_comm]

lemma incident_incoming (h : g.Tracks p) (node : NodeId) (type : Option String) :
    g.incident node .incoming type = p.incoming node type := by
  have hinc : g.adjacency.incident node .incoming = g.adjacency.incoming node := by
    simp [Adjacency.incident, Direction.includesOutgoing, Direction.includesIncoming]
  rw [Graph.incident, hinc, h.incoming,
    h.filterMap_relationship? fun r hr => (List.mem_filter.mp hr).1, List.filter_filter]
  refine List.filter_congr fun r _ => ?_
  simp [Bool.and_comm]

end Tracks

lemma incident_both (g : Graph) (node : NodeId) (type : Option String) :
    g.incident node .both type =
      g.incident node .outgoing type ++ g.incident node .incoming type := by
  simp [incident, Adjacency.incident, Direction.includesOutgoing, Direction.includesIncoming]

lemma ascending_nodeIds (g : Graph) : g.nodeIds.Pairwise (·.val < ·.val) := by
  have h : g.nodes.keys.Pairwise fun a b => compare a b = .lt := Std.TreeMap.ordered_keys
  exact h.imp fun hab => Nat.compare_eq_lt.mp hab

theorem Tracks.agrees (h : g.Tracks p) : g.Agrees p where
  node := h.node?
  relationship := h.relationship?
  nodeCount := h.nodes.size_eq p.nodup_ids
  relationshipCount := h.relationships.size_eq p.nodup_relationships
  nodeIds := h.nodes.keys_perm p.nodup_ids
  ascending := g.ascending_nodeIds
  outgoing := h.incident_outgoing
  incoming := h.incident_incoming
  both := fun node type => by rw [incident_both, h.incident_outgoing, h.incident_incoming]

/-! ### Fresh element ids -/

lemma length_le_freshElementId (taken : String → Bool) (tries : ℕ) (e : String) :
    e.length ≤ (freshElementId taken tries e).length := by
  induction tries generalizing e with
  | zero => simp [freshElementId]
  | succ tries ih =>
    rw [freshElementId]
    split
    · refine le_trans ?_ (ih _)
      rw [String.length_append]
      omega
    · exact le_rfl

/-- A list that has all taken names of some length and more is longer than the search that
ends on a taken one. -/
lemma not_taken_freshElementId {taken : String → Bool} {tries : ℕ} {e : String}
    (names : List String) (hmem : ∀ x, taken x = true → e.length ≤ x.length → x ∈ names)
    (hlen : names.length ≤ tries) : taken (freshElementId taken tries e) = false := by
  induction tries generalizing names e with
  | zero =>
    by_contra h
    have := hmem e (by simpa [freshElementId] using h) le_rfl
    rw [List.length_eq_zero_iff.mp (Nat.le_zero.mp hlen)] at this
    simp at this
  | succ tries ih =>
    rw [freshElementId]
    split
    · next ht =>
      have he : e ∈ names := hmem e ht le_rfl
      refine ih (names.erase e) (fun x hx hle => ?_) ?_
      · rw [String.length_append] at hle
        have hne : x ≠ e := by
          rintro rfl
          have : 0 < "'".length := by decide
          omega
        exact (List.mem_erase_of_ne hne).mpr (hmem x hx (by omega))
      · rw [List.length_erase_of_mem he]
        omega
    · next ht => simpa using ht

lemma Tracks.nodeObjection?_addNode (h : g.Tracks p) (labels : List String)
    (properties : Json.Fields) :
    p.nodeObjection? ⟨⟨g.nextNode⟩,
      freshElementId g.elementIds.contains g.elementIds.size
        ("n:" ++ toString (⟨g.nextNode⟩ : NodeId)), labels, properties⟩ = none := by
  rw [PlainGraph.nodeObjection?_eq_none_iff]
  set e := freshElementId g.elementIds.contains g.elementIds.size
    ("n:" ++ toString (⟨g.nextNode⟩ : NodeId)) with he
  refine ⟨?_, ?_, ?_⟩
  · intro hid
    obtain ⟨n, hn, hid⟩ := List.mem_map.mp hid
    have hlt := h.nextNode n hn
    rw [hid] at hlt
    exact lt_irrefl _ hlt
  · intro hnil
    have hle := length_le_freshElementId g.elementIds.contains g.elementIds.size
      ("n:" ++ toString (⟨g.nextNode⟩ : NodeId))
    change e = "" at hnil
    rw [← he, hnil, String.length_append] at hle
    have hpos : 0 < "n:".length := by decide
    have hzero : "".length = 0 := by decide
    omega
  · rw [← h.elementIds.contains_iff, Bool.not_eq_true]
    refine not_taken_freshElementId g.elementIds.keys (fun x hx _ => ?_) ?_
    · rwa [Std.TreeMap.mem_keys, Std.TreeMap.mem_iff_contains]
    · exact le_of_eq Std.TreeMap.length_keys

/-! ### Operations -/

lemma Tracks.insertNode (h : g.Tracks p) (n : Node) :
    g.insertNode n = match p.nodeObjection? n with
      | some e => .error e
      | none => .ok (g.putNode n) := by
  have hid : g.nodes.contains n.id = true ↔ n.id ∈ p.ids := h.nodes.contains_iff n.id
  have he := h.elementIds.contains_iff n.elementId
  simp only [Graph.insertNode, PlainGraph.nodeObjection?, String.isEmpty_iff, hid, he]
  split_ifs <;> rfl

lemma Tracks.checkNode (h : g.Tracks p) (id : NodeId) :
    g.checkNode id = if id ∈ p.ids then .ok () else .error (.nodeNotFound (toString id)) := by
  simp only [Graph.checkNode, h.nodes.contains_iff]
  rfl

lemma checkType_eq (type : String) : checkType type =
    if type = "" then .error (.invalidInput .emptyType)
    else if ¬ ValidType type then .error (.invalidInput (.reservedInType type))
    else .ok () := by
  unfold checkType
  by_cases h : type = ""
  · simp [h]
  · have hr : type.toList.any isReserved = true ↔ ¬ ValidType type := by
      simp [ValidType, h]
    simp only [String.isEmpty_iff, h, hr]

lemma Tracks.insertRelationship (h : g.Tracks p) (r : Relationship) :
    g.insertRelationship r = match p.relationshipObjection? r with
      | some e => .error e
      | none => .ok (g.putRelationship r) := by
  simp only [Graph.insertRelationship, PlainGraph.relationshipObjection?, checkType_eq,
    h.checkNode, h.relationships.contains_iff]
  split_ifs <;> rfl

lemma addRelationship_eq (g : Graph) (source target : NodeId) (type : String) :
    g.addRelationship source target type =
      (g.insertRelationship ⟨⟨g.nextRelationship⟩, type, source, target, []⟩).map
        fun g' => (⟨g.nextRelationship⟩, g') := rfl

lemma eq_nextRelationship_of_addRelationship {source target : NodeId} {type : String}
    {added : RelId × Graph} (h : g.addRelationship source target type = .ok added) :
    added.1 = ⟨g.nextRelationship⟩ := by
  rw [addRelationship_eq] at h
  cases hi : g.insertRelationship ⟨⟨g.nextRelationship⟩, type, source, target, []⟩ with
  | error e =>
    rw [hi] at h
    cases h
  | ok g' =>
    rw [hi] at h
    cases h
    rfl

lemma Tracks.putNode (h : g.Tracks p) (n : Node) (hn : p.nodeObjection? n = none) :
    (g.putNode n).Tracks (p.putNode n hn) := by
  obtain ⟨hid, -, he⟩ := PlainGraph.nodeObjection?_eq_none_iff.mp hn
  exact
    { nodes := h.nodes.insert hid
      relationships := h.relationships
      elementIds := h.elementIds.insert he
      adjacency := h.adjacency.addNode n.id
      nextNode := fun m hm => by
        rcases List.mem_append.mp hm with hm | hm
        · exact lt_of_lt_of_le (h.nextNode m hm) (le_max_left _ _)
        · rw [List.mem_singleton.mp hm]
          exact lt_of_lt_of_le (Nat.lt_succ_self _) (le_max_right _ _)
      nextRelationship := h.nextRelationship }

lemma Tracks.putRelationship (h : g.Tracks p) (r : Relationship)
    (hr : p.relationshipObjection? r = none) :
    (g.putRelationship r).Tracks (p.putRelationship r hr) := by
  have hid := (PlainGraph.relationshipObjection?_eq_none_iff.mp hr).2.2.2
  exact
    { nodes := h.nodes
      relationships := h.relationships.insert hid
      elementIds := h.elementIds
      adjacency := by
        have hadd := h.adjacency.addRelationship r.id r.source r.target
        change (g.adjacency.addRelationship r.id r.source r.target).Shows _
        simpa [PlainGraph.putRelationship, Relationship.link] using hadd
      nextNode := h.nextNode
      nextRelationship := fun s hs => by
        rcases List.mem_append.mp hs with hs | hs
        · exact lt_of_lt_of_le (h.nextRelationship s hs) (le_max_left _ _)
        · rw [List.mem_singleton.mp hs]
          exact lt_of_lt_of_le (Nat.lt_succ_self _) (le_max_right _ _) }

lemma Tracks.nextRelationship_notMem (h : g.Tracks p) :
    (⟨g.nextRelationship⟩ : RelId) ∉ p.relationships.map Relationship.id := by
  intro hmem
  obtain ⟨r, hr, hid⟩ := List.mem_map.mp hmem
  have hlt := h.nextRelationship r hr
  rw [hid] at hlt
  exact lt_irrefl _ hlt

lemma nodup_map_link (p : PlainGraph) :
    ((p.relationships.map Relationship.link).map Link.rel).Nodup := by
  rw [List.map_map]
  exact p.nodup_relationships

lemma Tracks.dropRelationship (h : g.Tracks p) {r : Relationship} (hr : r ∈ p.relationships) :
    (g.dropRelationship r.id r.source r.target).Tracks (p.eraseRelationship r.id) where
  nodes := h.nodes
  relationships := h.relationships.erase r.id
  elementIds := h.elementIds
  adjacency := by
    have hdrop := h.adjacency.removeRelationship (l := r.link) fun l hl =>
      Adjacency.eq_of_rel_eq (nodup_map_link p) hl (List.mem_map_of_mem hr)
    rw [List.filter_map] at hdrop
    exact hdrop
  nextNode := h.nextNode
  nextRelationship := fun s hs => h.nextRelationship s (List.mem_filter.mp hs).1

lemma Tracks.knows (h : g.Tracks p) :
    Adjacency.Knows g.ends? (p.relationships.map Relationship.link) := by
  intro l hl
  obtain ⟨r, hr, rfl⟩ := List.mem_map.mp hl
  change g.ends? r.id = _
  rw [ends?, h.relationship?_eq_some_iff.mpr ⟨hr, rfl⟩]
  rfl

lemma mem_touching (p : PlainGraph) {r : Relationship} (hr : r ∈ p.relationships) (id : NodeId) :
    r.id ∈ (Adjacency.touching (p.relationships.map Relationship.link) id).map Link.rel ↔
      r.source = id ∨ r.target = id :=
  Adjacency.rel_mem_touching (nodup_map_link p) (List.mem_map_of_mem hr) id

lemma Tracks.dropNode (h : g.Tracks p) {n : Node} (hn : n ∈ p.nodes) :
    (g.dropNode n.id n.elementId).Tracks (p.eraseNode n.id) := by
  obtain ⟨hrem, hadj⟩ := h.adjacency.removeNode (nodup_map_link p) h.knows n.id
  exact
    { nodes := h.nodes.erase n.id
      relationships := by
        have hdrop := h.relationships.foldl_erase (g.adjacency.removeNode n.id g.ends?).1
        have hkeep : p.relationships.filter
            (·.id ∉ (g.adjacency.removeNode n.id g.ends?).1) =
            p.relationships.filter fun r => r.source ≠ n.id ∧ r.target ≠ n.id := by
          refine List.filter_congr fun r hr => ?_
          simp only [hrem, mem_touching p hr, not_or]
        rw [hkeep] at hdrop
        exact hdrop
      elementIds := by
        have hdrop := h.elementIds.erase n.elementId
        have hkeep : p.nodes.filter (·.elementId ≠ n.elementId) =
            p.nodes.filter (·.id ≠ n.id) := by
          refine List.filter_congr fun m hm => ?_
          have he : m.elementId = n.elementId ↔ m.id = n.id :=
            ⟨fun he => by rw [List.inj_on_of_nodup_map p.nodup_elementIds hm hn he],
              fun hid => by rw [List.inj_on_of_nodup_map p.nodup_ids hm hn hid]⟩
          simp only [ne_eq, he]
        rw [hkeep] at hdrop
        exact hdrop
      adjacency := by
        rw [Adjacency.apart, List.filter_map] at hadj
        exact hadj
      nextNode := fun m hm => h.nextNode m (List.mem_filter.mp hm).1
      nextRelationship := fun s hs => h.nextRelationship s (List.mem_filter.mp hs).1 }

/-! ### Runs -/

/-- One operation on a store is one operation on the plain graph that it tracks. -/
theorem Tracks.perform (h : g.Tracks p) (op : Operation) :
    ∃ p', p.Step op (g.perform op).1 p' ∧ (g.perform op).2.Tracks p' := by
  cases op with
  | addNode labels properties =>
    have hn := h.nodeObjection?_addNode labels properties
    exact ⟨_, .addNode _ hn, h.putNode _ hn⟩
  | insertNode n =>
    rw [Graph.perform, h.insertNode]
    rcases ho : p.nodeObjection? n with _ | e
    · exact ⟨_, .insertNode n ho, h.putNode n ho⟩
    · exact ⟨p, .refuseNode n e ho, h⟩
  | removeNode id =>
    rw [Graph.perform, Graph.removeNode?]
    rcases hn : g.node? id with _ | n
    · refine ⟨p, .missNode id fun hid => ?_, h⟩
      rw [← h.isSome_node?_iff, hn] at hid
      cases hid
    · obtain ⟨hmem, rfl⟩ := h.node?_eq_some_iff.mp hn
      exact ⟨_, .removeNode n.id (List.mem_map_of_mem hmem), h.dropNode hmem⟩
  | addRelationship source target type =>
    set r : Relationship := ⟨⟨g.nextRelationship⟩, type, source, target, []⟩ with hr
    have hfresh : r.id ∉ p.relationships.map Relationship.id := h.nextRelationship_notMem
    rw [Graph.perform, addRelationship_eq, ← hr, h.insertRelationship]
    rcases ho : p.relationshipObjection? r with _ | e
    · exact ⟨_, .addRelationship r rfl ho, h.putRelationship r ho⟩
    · refine ⟨p, .refuseAdd source target type e fun id => ?_, h⟩
      -- an id in use is the last objection, and the id of `r` is not in use
      unfold PlainGraph.relationshipObjection? at ho ⊢
      rw [if_neg hfresh] at ho
      split_ifs at ho ⊢ <;> simp_all
  | insertRelationship r =>
    rw [Graph.perform, h.insertRelationship]
    rcases ho : p.relationshipObjection? r with _ | e
    · exact ⟨_, .insertRelationship r ho, h.putRelationship r ho⟩
    · exact ⟨p, .refuseRelationship r e ho, h⟩
  | removeRelationship id =>
    rw [Graph.perform, Graph.removeRelationship?]
    rcases hr : g.relationship? id with _ | r
    · refine ⟨p, .missRelationship id fun hid => ?_, h⟩
      obtain ⟨s, hs⟩ := List.mem_map.mp hid
      rw [h.relationship?_eq_some_iff.mpr hs] at hr
      cases hr
    · obtain ⟨hmem, rfl⟩ := h.relationship?_eq_some_iff.mp hr
      exact ⟨_, .removeRelationship r.id (List.mem_map_of_mem hmem), h.dropRelationship hmem⟩

/-- A plain graph that takes the same operations with the same answers agrees with the store
before and after each of them. -/
def Mirrors (g : Graph) (p : PlainGraph) : List Operation → Prop
  | [] => g.Agrees p
  | op :: ops =>
    g.Agrees p ∧ ∃ p', p.Step op (g.perform op).1 p' ∧ Mirrors (g.perform op).2 p' ops

lemma Tracks.mirrors (h : g.Tracks p) (ops : List Operation) : g.Mirrors p ops := by
  induction ops generalizing g p with
  | nil => exact h.agrees
  | cons op ops ih =>
    obtain ⟨p', hstep, h'⟩ := h.perform op
    exact ⟨h.agrees, p', hstep, ih h'⟩

/-- Every graph that can be made tracks some plain graph. -/
theorem Reachable.exists_tracks (h : g.Reachable) : ∃ p, g.Tracks p := by
  obtain ⟨ops, rfl⟩ := h
  induction ops using List.reverseRecOn with
  | nil => exact ⟨.empty, tracks_empty⟩
  | append_singleton ops op ih =>
    obtain ⟨p, hp⟩ := ih
    obtain ⟨p', -, hp'⟩ := hp.perform op
    rw [after_append]
    exact ⟨p', hp'⟩

/-- **Refinement**: whatever is done to the empty store, a plain graph that starts empty takes the
same operations with the same answers, and agrees with the store before and after each. -/
theorem empty_mirrors (ops : List Operation) : empty.Mirrors .empty ops :=
  tracks_empty.mirrors ops

end Graph

end GraphWalk
