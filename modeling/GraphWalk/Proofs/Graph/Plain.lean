import GraphWalk.Graph.Basic
import Mathlib.Data.List.Nodup
import Mathlib.Tactic.Common

/-!
Plain graphs: a list of nodes and a list of relationships, both oldest first.

A plain graph has no index and no counter. Ids and element ids are distinct, every relationship
joins two nodes of the graph, and nothing else is kept; what a store answers is stated
against it.
-/

namespace GraphWalk

/-- A type that a relationship may have. -/
def ValidType (type : String) : Prop := type ≠ "" ∧ ∀ c ∈ type.toList, Graph.isReserved c = false

instance (type : String) : Decidable (ValidType type) := inferInstanceAs (Decidable (_ ∧ _))

structure PlainGraph where
  nodes : List Node
  relationships : List Relationship
  nodup_ids : (nodes.map Node.id).Nodup
  nodup_elementIds : (nodes.map Node.elementId).Nodup
  named : ∀ n ∈ nodes, n.elementId ≠ ""
  nodup_relationships : (relationships.map Relationship.id).Nodup
  closed : ∀ r ∈ relationships, r.source ∈ nodes.map Node.id ∧ r.target ∈ nodes.map Node.id
  typed : ∀ r ∈ relationships, ValidType r.type

namespace PlainGraph

variable (p : PlainGraph)

def empty : PlainGraph := ⟨[], [], by simp, by simp, by simp, by simp, by simp, by simp⟩

instance : Inhabited PlainGraph := ⟨empty⟩

/-- The ids of the nodes, oldest first. -/
def ids : List NodeId := p.nodes.map Node.id

def node? (id : NodeId) : Option Node := p.nodes.find? (·.id = id)

def relationship? (id : RelId) : Option Relationship := p.relationships.find? (·.id = id)

/-- The relationships that leave a node, of one type if a type is given. -/
def outgoing (node : NodeId) (type : Option String) : List Relationship :=
  p.relationships.filter fun r => r.source = node ∧ type.all (· == r.type)

/-- The relationships that arrive at a node, of one type if a type is given. -/
def incoming (node : NodeId) (type : Option String) : List Relationship :=
  p.relationships.filter fun r => r.target = node ∧ type.all (· == r.type)

/-- Why a node cannot be put into the graph. -/
def nodeObjection? (n : Node) : Option WalkError :=
  if n.id ∈ p.ids then some (.invalidInput (.nodeExists n.id))
  else if n.elementId = "" then some (.invalidInput .emptyElementId)
  else if n.elementId ∈ p.nodes.map Node.elementId then
    some (.invalidInput (.elementIdInUse n.elementId))
  else none

/-- Why a relationship cannot be put into the graph. -/
def relationshipObjection? (r : Relationship) : Option WalkError :=
  if r.type = "" then some (.invalidInput .emptyType)
  else if ¬ ValidType r.type then some (.invalidInput (.reservedInType r.type))
  else if r.source ∉ p.ids then some (.nodeNotFound (toString r.source))
  else if r.target ∉ p.ids then some (.nodeNotFound (toString r.target))
  else if r.id ∈ p.relationships.map Relationship.id then
    some (.invalidInput (.relationshipExists r.id))
  else none

variable {p}

lemma nodeObjection?_eq_none_iff {n : Node} : p.nodeObjection? n = none ↔
    n.id ∉ p.ids ∧ n.elementId ≠ "" ∧ n.elementId ∉ p.nodes.map Node.elementId := by
  unfold nodeObjection?
  split_ifs <;> simp_all

lemma relationshipObjection?_eq_none_iff {r : Relationship} :
    p.relationshipObjection? r = none ↔ ValidType r.type ∧ r.source ∈ p.ids ∧ r.target ∈ p.ids ∧
      r.id ∉ p.relationships.map Relationship.id := by
  have hne : ValidType r.type → r.type ≠ "" := And.left
  unfold relationshipObjection?
  split_ifs <;> simp_all

variable (p)

def putNode (n : Node) (h : p.nodeObjection? n = none) : PlainGraph where
  nodes := p.nodes ++ [n]
  relationships := p.relationships
  nodup_ids := by
    have hid := (nodeObjection?_eq_none_iff.mp h).1
    simpa [List.nodup_append, p.nodup_ids, ids] using hid
  nodup_elementIds := by
    have he := (nodeObjection?_eq_none_iff.mp h).2.2
    simpa [List.nodup_append, p.nodup_elementIds] using he
  named := by
    have hne := (nodeObjection?_eq_none_iff.mp h).2.1
    intro m hm
    rcases List.mem_append.mp hm with hm | hm
    · exact p.named m hm
    · rw [List.mem_singleton.mp hm]
      exact hne
  nodup_relationships := p.nodup_relationships
  closed := by
    intro r hr
    obtain ⟨hs, ht⟩ := p.closed r hr
    rw [List.map_append]
    exact ⟨List.mem_append_left _ hs, List.mem_append_left _ ht⟩
  typed := p.typed

def putRelationship (r : Relationship) (h : p.relationshipObjection? r = none) : PlainGraph where
  nodes := p.nodes
  relationships := p.relationships ++ [r]
  nodup_ids := p.nodup_ids
  nodup_elementIds := p.nodup_elementIds
  named := p.named
  nodup_relationships := by
    have hid := (relationshipObjection?_eq_none_iff.mp h).2.2.2
    simpa [List.nodup_append, p.nodup_relationships] using hid
  closed := by
    have hends := (relationshipObjection?_eq_none_iff.mp h).2
    intro s hs
    rcases List.mem_append.mp hs with hs | hs
    · exact p.closed s hs
    · rw [List.mem_singleton.mp hs]
      exact ⟨hends.1, hends.2.1⟩
  typed := by
    have htype := (relationshipObjection?_eq_none_iff.mp h).1
    intro s hs
    rcases List.mem_append.mp hs with hs | hs
    · exact p.typed s hs
    · rw [List.mem_singleton.mp hs]
      exact htype

/-- The graph without a node and without the relationships that start or end at it. -/
def eraseNode (id : NodeId) : PlainGraph where
  nodes := p.nodes.filter (·.id ≠ id)
  relationships := p.relationships.filter fun r => r.source ≠ id ∧ r.target ≠ id
  nodup_ids := p.nodup_ids.sublist (List.filter_sublist.map _)
  nodup_elementIds := p.nodup_elementIds.sublist (List.filter_sublist.map _)
  named := fun n hn => p.named n (List.mem_filter.mp hn).1
  nodup_relationships := p.nodup_relationships.sublist (List.filter_sublist.map _)
  closed := by
    have hkeep : ∀ i ∈ p.nodes.map Node.id, i ≠ id →
        i ∈ (p.nodes.filter (·.id ≠ id)).map Node.id := by
      intro i hi hne
      obtain ⟨n, hn, rfl⟩ := List.mem_map.mp hi
      exact List.mem_map_of_mem (List.mem_filter.mpr ⟨hn, by simpa using hne⟩)
    intro r hr
    obtain ⟨hr, hne⟩ := List.mem_filter.mp hr
    simp only [decide_eq_true_eq] at hne
    exact ⟨hkeep _ (p.closed r hr).1 hne.1, hkeep _ (p.closed r hr).2 hne.2⟩
  typed := fun r hr => p.typed r (List.mem_filter.mp hr).1

def eraseRelationship (id : RelId) : PlainGraph where
  nodes := p.nodes
  relationships := p.relationships.filter (·.id ≠ id)
  nodup_ids := p.nodup_ids
  nodup_elementIds := p.nodup_elementIds
  named := p.named
  nodup_relationships := p.nodup_relationships.sublist (List.filter_sublist.map _)
  closed := fun r hr => p.closed r (List.mem_filter.mp hr).1
  typed := fun r hr => p.typed r (List.mem_filter.mp hr).1

lemma find?_key_eq_some_iff {α κ : Type} [DecidableEq κ] {key : α → κ} {as : List α}
    (h : (as.map key).Nodup) {k : κ} {a : α} :
    as.find? (key · = k) = some a ↔ a ∈ as ∧ key a = k := by
  induction as with
  | nil => simp
  | cons b as ih =>
    obtain ⟨hb, hn⟩ := List.nodup_cons.mp h
    by_cases hk : key b = k
    · have hout : a ∈ as → key a ≠ k := fun ha he => hb (hk ▸ he ▸ List.mem_map_of_mem ha)
      rw [List.find?_cons_of_pos (by simpa using hk), Option.some.injEq, List.mem_cons]
      constructor
      · rintro rfl
        exact ⟨.inl rfl, hk⟩
      · rintro ⟨rfl | ha, he⟩
        · rfl
        · exact absurd he (hout ha)
    · rw [List.find?_cons_of_neg (by simpa using hk), ih hn, List.mem_cons]
      constructor
      · rintro ⟨ha, he⟩
        exact ⟨.inr ha, he⟩
      · rintro ⟨rfl | ha, he⟩
        · exact absurd he hk
        · exact ⟨ha, he⟩

variable {p}

lemma node?_eq_some_iff {id : NodeId} {n : Node} :
    p.node? id = some n ↔ n ∈ p.nodes ∧ n.id = id := find?_key_eq_some_iff p.nodup_ids

lemma relationship?_eq_some_iff {id : RelId} {r : Relationship} :
    p.relationship? id = some r ↔ r ∈ p.relationships ∧ r.id = id :=
  find?_key_eq_some_iff p.nodup_relationships

end PlainGraph

end GraphWalk
