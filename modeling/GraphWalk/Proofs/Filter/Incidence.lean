import GraphWalk.Proofs.Traversal.Expansion

/-!
The relationships that a filter lets through at a node.

A filter is asked in two ways: about one relationship, by its type and by the side on which it is
seen from the node, and for all relationships at a node, by one query to the graph for each of its
entries. The two agree, and the enumeration is in the order of the entries and then of the graph.
-/

namespace GraphWalk

namespace PlainGraph

/-- The relationships at a node as a graph lists them: those that leave the node before those that
arrive at it, the older before the newer, and a loop once. -/
def listed (p : PlainGraph) (node : NodeId) : Direction → List Relationship
  | .outgoing => p.outgoing node none
  | .incoming => p.incoming node none
  | .both => p.outgoing node none ++ (p.incoming node none).filter (·.source ≠ node)

variable {p : PlainGraph} {node : NodeId} {type : Option String} {r : Relationship}

lemma outgoing_eq_filter (p : PlainGraph) (node : NodeId) (type : Option String) :
    p.outgoing node type = (p.outgoing node none).filter fun r => type.all (· == r.type) := by
  unfold outgoing
  rw [List.filter_filter]
  refine List.filter_congr fun r _ => ?_
  simp [Bool.and_comm]

lemma incoming_eq_filter (p : PlainGraph) (node : NodeId) (type : Option String) :
    p.incoming node type = (p.incoming node none).filter fun r => type.all (· == r.type) := by
  unfold incoming
  rw [List.filter_filter]
  refine List.filter_congr fun r _ => ?_
  simp [Bool.and_comm]

lemma mem_outgoing :
    r ∈ p.outgoing node type ↔
      r ∈ p.relationships ∧ r.source = node ∧ type.all (· == r.type) = true := by
  simp [outgoing]

lemma mem_incoming :
    r ∈ p.incoming node type ↔
      r ∈ p.relationships ∧ r.target = node ∧ type.all (· == r.type) = true := by
  simp [incoming]

lemma nodup_outgoing (p : PlainGraph) (node : NodeId) (type : Option String) :
    ((p.outgoing node type).map Relationship.id).Nodup :=
  p.nodup_relationships.sublist (List.filter_sublist.map _)

lemma nodup_incoming (p : PlainGraph) (node : NodeId) (type : Option String) :
    ((p.incoming node type).map Relationship.id).Nodup :=
  p.nodup_relationships.sublist (List.filter_sublist.map _)

lemma eq_of_id_eq {s : Relationship} (hr : r ∈ p.relationships) (hs : s ∈ p.relationships)
    (h : r.id = s.id) : r = s :=
  List.inj_on_of_nodup_map p.nodup_relationships hr hs h

end PlainGraph

namespace Graph

/-- The list holds the stored relationships that have a property, each once, and nothing else. -/
def Lists (g : Graph) (rs : List Relationship) (P : Relationship → Prop) : Prop :=
  (rs.map Relationship.id).Nodup ∧ ∀ r, r ∈ rs ↔ g.relationship? r.id = some r ∧ P r

lemma Lists.congr {g : Graph} {rs : List Relationship} {P Q : Relationship → Prop}
    (h : g.Lists rs P) (hPQ : ∀ r, P r ↔ Q r) : g.Lists rs Q :=
  ⟨h.1, fun r => (h.2 r).trans (and_congr_right fun _ => hPQ r)⟩

variable {g : Graph} {p : PlainGraph} {node : NodeId} {d : Direction} {type : Option String}
  {r : Relationship}

lemma Tracks.mem_incident_iff (h : g.Tracks p) :
    r ∈ g.incident node d type ↔
      r ∈ p.relationships ∧ (r.source = node ∨ r.target = node) ∧
        d.admits (r.directionFrom node) = true ∧ type.all (· == r.type) = true := by
  refine ⟨fun hr => ?_, fun ⟨hr, hends, hseen, htype⟩ => ?_⟩
  · obtain ⟨id, hid⟩ := exists_relationship?_of_mem_incident hr
    exact ⟨(h.relationship?_eq_some_iff.mp hid).1, h.mem_incident hr⟩
  · have hout : r.source = node → r ∈ g.incident node .outgoing type := by
      intro hsource
      rw [h.incident_outgoing]
      exact PlainGraph.mem_outgoing.mpr ⟨hr, hsource, htype⟩
    have hin : r.target = node → r ∈ g.incident node .incoming type := by
      intro htarget
      rw [h.incident_incoming]
      exact PlainGraph.mem_incoming.mpr ⟨hr, htarget, htype⟩
    cases d with
    | outgoing => exact hout (Direction.admits_outgoing_iff.mp hseen)
    | incoming => exact hin ((Direction.admits_incoming_iff hends).mp hseen)
    | both =>
      rw [incident_both, List.mem_append]
      exact hends.imp hout hin

lemma Tracks.distinctBy_incident (h : g.Tracks p) (node : NodeId) (d : Direction)
    (type : Option String) :
    distinctBy Relationship.id ∅ (g.incident node d type) =
      (p.listed node d).filter fun r => type.all (· == r.type) := by
  have hout : distinctBy Relationship.id ∅ (p.outgoing node type) = p.outgoing node type :=
    distinctBy_eq_self (p.nodup_outgoing node type) (by simp)
  have hin : distinctBy Relationship.id ∅ (p.incoming node type) = p.incoming node type :=
    distinctBy_eq_self (p.nodup_incoming node type) (by simp)
  cases d with
  | outgoing =>
    rw [h.incident_outgoing, hout, p.outgoing_eq_filter]
    rfl
  | incoming =>
    rw [h.incident_incoming, hin, p.incoming_eq_filter]
    rfl
  | both =>
    rw [incident_both, h.incident_outgoing, h.incident_incoming, distinctBy_append, hout, hin,
      PlainGraph.listed, List.filter_append, ← p.outgoing_eq_filter, List.filter_comm,
      ← p.incoming_eq_filter]
    congr 1
    refine List.filter_congr fun r hr => ?_
    obtain ⟨hmem, -, htype⟩ := PlainGraph.mem_incoming.mp hr
    -- an arriving relationship was listed before exactly if it is a loop
    have hloop : r.id ∈ (p.outgoing node type).map Relationship.id ↔ r.source = node := by
      refine ⟨fun hid => ?_, fun hsource => ?_⟩
      · obtain ⟨s, hs, hid⟩ := List.mem_map.mp hid
        obtain ⟨hs, hsource, -⟩ := PlainGraph.mem_outgoing.mp hs
        rwa [← p.eq_of_id_eq hs hmem hid]
      · exact List.mem_map_of_mem (PlainGraph.mem_outgoing.mpr ⟨hmem, hsource, htype⟩)
    simp [hloop]

/-- A plain graph to which the operations lead, one step for each, with the answers of the store. -/
def LeadsTo (g : Graph) (p : PlainGraph) : List Operation → PlainGraph → Prop
  | [], q => q = p
  | op :: ops, q => ∃ p', p.Step op (g.perform op).1 p' ∧ (g.perform op).2.LeadsTo p' ops q

lemma Tracks.exists_leadsTo (h : g.Tracks p) (ops : List Operation) :
    ∃ q, g.LeadsTo p ops q ∧ (g.after ops).Tracks q := by
  induction ops generalizing g p with
  | nil => exact ⟨p, rfl, h⟩
  | cons op ops ih =>
    obtain ⟨p', hstep, hp'⟩ := h.perform op
    obtain ⟨q, hq, hafter⟩ := ih hp'
    exact ⟨q, ⟨p', hstep, hq⟩, hafter⟩

end Graph

namespace RelationshipFilter

variable {g : Graph} {p : PlainGraph} {f : RelationshipFilter} {e : Entry} {es : List Entry}
  {node : NodeId} {r a b : Relationship}

lemma Entry.admits_iff (h : g.Tracks p) (hr : r ∈ p.relationships)
    (hends : r.source = node ∨ r.target = node) :
    e.admits r node = true ↔ r ∈ g.incident node e.direction e.type := by
  rw [h.mem_incident_iff, Entry.admits, Entry.admitsType, Bool.and_eq_true]
  tauto

lemma admits_eq_any (f : RelationshipFilter) (r : Relationship) (node : NodeId) :
    f.admits r node = f.queries.any (·.admits r node) := by
  unfold admits queries
  cases f.isAny <;> simp [Entry.admits, Entry.admitsType, Direction.admits]

lemma mem_expand_iff (h : g.Tracks p) :
    r ∈ f.expand g node ↔
      r ∈ p.relationships ∧ (r.source = node ∨ r.target = node) ∧ f.admits r node = true := by
  rw [admits_eq_any, List.any_eq_true]
  constructor
  · intro hr
    obtain ⟨e, he, hin⟩ := exists_query_of_mem_expand hr
    obtain ⟨hmem, hends, -⟩ := h.mem_incident_iff.mp hin
    exact ⟨hmem, hends, e, he, (Entry.admits_iff h hmem hends).mpr hin⟩
  · rintro ⟨hmem, hends, e, he, hadmits⟩
    have hin : r ∈ f.queries.flatMap fun e => g.incident node e.direction e.type :=
      List.mem_flatMap.mpr ⟨e, he, (Entry.admits_iff h hmem hends).mp hadmits⟩
    obtain ⟨s, hs, hid⟩ := exists_mem_distinctBy hin
      (Std.TreeSet.not_mem_emptyc : r.id ∉ (∅ : Std.TreeSet RelId))
    obtain ⟨e', -, hs'⟩ := List.mem_flatMap.mp (mem_of_mem_distinctBy hs).1
    rwa [p.eq_of_id_eq (h.mem_incident_iff.mp hs').1 hmem hid] at hs

lemma lists_expand (h : g.Tracks p) (f : RelationshipFilter) (node : NodeId) :
    g.Lists (f.expand g node) fun r =>
      (r.source = node ∨ r.target = node) ∧ f.admits r node = true := by
  refine ⟨nodup_map_distinctBy ∅ _, fun r => ?_⟩
  rw [mem_expand_iff h, h.relationship?_eq_some_iff, and_iff_left rfl]

/-- How many entries come before the first that admits a relationship. -/
def rank (es : List Entry) (node : NodeId) (r : Relationship) : ℕ :=
  es.findIdx (·.admits r node)

/-- An earlier entry admits the first relationship, or the first entry that admits either is the
same and the graph lists the first relationship before the second. -/
def Precedes (es : List Entry) (p : PlainGraph) (node : NodeId) (a b : Relationship) : Prop :=
  rank es node a < rank es node b ∨
    rank es node a = rank es node b ∧
      ∃ e, es[rank es node a]? = some e ∧ [a, b].Sublist (p.listed node e.direction)

lemma rank_cons_of_admits (h : e.admits r node = true) : rank (e :: es) node r = 0 := by
  simp [rank, List.findIdx_cons, h]

lemma rank_cons_of_not_admits (h : e.admits r node = false) :
    rank (e :: es) node r = rank es node r + 1 := by
  simp [rank, List.findIdx_cons, h]

lemma Precedes.cons (h : Precedes es p node a b) (ha : e.admits a node = false)
    (hb : e.admits b node = false) : Precedes (e :: es) p node a b := by
  unfold Precedes
  rw [rank_cons_of_not_admits ha, rank_cons_of_not_admits hb, List.getElem?_cons_succ]
  exact h.imp Nat.succ_lt_succ fun ⟨hrank, hlisted⟩ => ⟨congrArg Nat.succ hrank, hlisted⟩

/-- The answers to the entries, one after another and each relationship once, are in order. -/
lemma pairwise_precedes (h : g.Tracks p) (node : NodeId) (es : List Entry) :
    (distinctBy Relationship.id ∅ (es.flatMap fun e => g.incident node e.direction e.type)).Pairwise
      (Precedes es p node) := by
  induction es with
  | nil => exact .nil
  | cons e es ih =>
    have hfirst : ∀ r ∈ distinctBy Relationship.id ∅ (g.incident node e.direction e.type),
        e.admits r node = true := by
      intro r hr
      have hin := (mem_of_mem_distinctBy hr).1
      obtain ⟨hmem, hends, -⟩ := h.mem_incident_iff.mp hin
      exact (Entry.admits_iff h hmem hends).mpr hin
    have hlater : ∀ r ∈ (distinctBy Relationship.id ∅
          (es.flatMap fun e => g.incident node e.direction e.type)).filter
          (·.id ∉ (g.incident node e.direction e.type).map Relationship.id),
        e.admits r node = false := by
      intro r hr
      obtain ⟨hr, hnew⟩ := List.mem_filter.mp hr
      obtain ⟨e', -, hin⟩ := List.mem_flatMap.mp (mem_of_mem_distinctBy hr).1
      obtain ⟨hmem, hends, -⟩ := h.mem_incident_iff.mp hin
      rw [← Bool.not_eq_true, Entry.admits_iff h hmem hends]
      exact fun hold => of_decide_eq_true hnew (List.mem_map_of_mem hold)
    rw [List.flatMap_cons, distinctBy_append, List.pairwise_append]
    refine ⟨?_, ?_, fun a ha b hb => ?_⟩
    · refine List.pairwise_iff_forall_sublist.mpr fun {a b} hab => .inr ?_
      have ha := hfirst a (hab.subset (by simp))
      have hb := hfirst b (hab.subset (by simp))
      rw [rank_cons_of_admits ha, rank_cons_of_admits hb]
      rw [h.distinctBy_incident] at hab
      exact ⟨rfl, e, rfl, hab.trans List.filter_sublist⟩
    · exact (ih.filter _).imp_of_mem fun ha hb hab => hab.cons (hlater _ ha) (hlater _ hb)
    · left
      rw [rank_cons_of_admits (hfirst a ha), rank_cons_of_not_admits (hlater b hb)]
      exact Nat.succ_pos _

/-- **Enumeration**: whatever was done to the store, a filter enumerates at a node exactly the
stored relationships at the node that it admits there, each once, in the order of the entries that
first admit them and then in the order in which the graph lists them, which is that of insertion. -/
theorem expand_enumerates_admitted (ops : List Graph.Operation) :
    ∃ p, Graph.empty.LeadsTo .empty ops p ∧ ∀ (f : RelationshipFilter) (node : NodeId),
      ((Graph.empty.after ops).Lists (f.expand (Graph.empty.after ops) node) fun r =>
          (r.source = node ∨ r.target = node) ∧ f.admits r node = true) ∧
        (f.expand (Graph.empty.after ops) node).Pairwise (Precedes f.queries p node) := by
  obtain ⟨p, hp, h⟩ := Graph.tracks_empty.exists_leadsTo ops
  exact ⟨p, hp, fun f node => ⟨lists_expand h f node, pairwise_precedes h node f.queries⟩⟩

/-- A loop is listed where it leaves the node, and an entry that admits it again adds nothing. -/
example :
    let g := Graph.empty.after [.addNode [] [], .addNode [] [], .addRelationship ⟨1⟩ ⟨0⟩ "R",
      .addRelationship ⟨0⟩ ⟨0⟩ "L", .addRelationship ⟨0⟩ ⟨1⟩ "R"]
    ((parse "R|*").expand g ⟨0⟩).map (·.id.val) = [2, 0, 1] ∧
      ((parse "*|R").expand g ⟨0⟩).map (·.id.val) = [1, 2, 0] := by
  decide +kernel

end RelationshipFilter

end GraphWalk
