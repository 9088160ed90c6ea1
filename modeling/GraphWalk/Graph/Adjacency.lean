import GraphWalk.Graph.Record
import Std.Data.TreeMap

/-!
Adjacency lists: for every node the relationships that leave it and those that arrive at it, each in
the order in which they were added.
-/

namespace GraphWalk

structure Adjacency where
  nodes : NodeSet := ∅
  leaving : Std.TreeMap NodeId (List RelId) := ∅
  arriving : Std.TreeMap NodeId (List RelId) := ∅

namespace Adjacency

def empty : Adjacency := {}

instance : Inhabited Adjacency := ⟨empty⟩

def outgoing (a : Adjacency) (node : NodeId) : List RelId := a.leaving.getD node []

def incoming (a : Adjacency) (node : NodeId) : List RelId := a.arriving.getD node []

/-- The relationships at a node; in both directions those that leave it come first, and a loop
occurs twice. -/
def incident (a : Adjacency) (node : NodeId) (d : Direction) : List RelId :=
  (if d.includesOutgoing then a.outgoing node else []) ++
    (if d.includesIncoming then a.incoming node else [])

def addNode (a : Adjacency) (node : NodeId) : Adjacency := { a with nodes := a.nodes.insert node }

def addRelationship (a : Adjacency) (rel : RelId) (source target : NodeId) : Adjacency :=
  { a with
    leaving := a.leaving.insert source (a.outgoing source ++ [rel])
    arriving := a.arriving.insert target (a.incoming target ++ [rel]) }

/-- Drops a relationship from the list of those that leave `source`. -/
def dropOutgoing (a : Adjacency) (rel : RelId) (source : NodeId) : Adjacency :=
  { a with leaving := a.leaving.modify source (·.filter (· != rel)) }

def dropIncoming (a : Adjacency) (rel : RelId) (target : NodeId) : Adjacency :=
  { a with arriving := a.arriving.modify target (·.filter (· != rel)) }

def removeRelationship (a : Adjacency) (rel : RelId) (source target : NodeId) : Adjacency :=
  (a.dropOutgoing rel source).dropIncoming rel target

/-- Adds the members of the second list that are new to the first. -/
def addNew (rels : List RelId) : List RelId → List RelId
  | [] => rels
  | rel :: rest => addNew (if rels.contains rel then rels else rels ++ [rel]) rest

/-- Drops a relationship where it arrives, if its end points are known. -/
def dropAtTarget (ends : RelId → Option (NodeId × NodeId)) (a : Adjacency) (rel : RelId) :
    Adjacency :=
  match ends rel with
  | some (_, target) => a.dropIncoming rel target
  | none => a

def dropAtSource (ends : RelId → Option (NodeId × NodeId)) (a : Adjacency) (rel : RelId) :
    Adjacency :=
  match ends rel with
  | some (source, _) => a.dropOutgoing rel source
  | none => a

/-- Removes a node together with its relationships, and gives these. The arriving ones are taken
after the leaving ones were dropped everywhere, so that a loop is not met again. -/
def removeNode (a : Adjacency) (node : NodeId) (ends : RelId → Option (NodeId × NodeId)) :
    List RelId × Adjacency :=
  let left := a.outgoing node
  let a := left.foldl (dropAtTarget ends)
    { a with nodes := a.nodes.erase node, leaving := a.leaving.erase node }
  let arrived := a.incoming node
  let a := arrived.foldl (dropAtSource ends) { a with arriving := a.arriving.erase node }
  (addNew left arrived, a)

@[simp] theorem outgoing_empty (node : NodeId) : empty.outgoing node = [] := by
  simp [outgoing, empty]

@[simp] theorem incoming_empty (node : NodeId) : empty.incoming node = [] := by
  simp [incoming, empty]

theorem outgoing_addRelationship (a : Adjacency) (rel : RelId) (source target node : NodeId) :
    (a.addRelationship rel source target).outgoing node =
      if node = source then a.outgoing node ++ [rel] else a.outgoing node := by
  simp only [addRelationship, outgoing, Std.TreeMap.getD_insert, Std.LawfulEqOrd.compare_eq_iff_eq]
  by_cases h : source = node <;> simp [h, eq_comm]

theorem incoming_addRelationship (a : Adjacency) (rel : RelId) (source target node : NodeId) :
    (a.addRelationship rel source target).incoming node =
      if node = target then a.incoming node ++ [rel] else a.incoming node := by
  simp only [addRelationship, incoming, Std.TreeMap.getD_insert, Std.LawfulEqOrd.compare_eq_iff_eq]
  by_cases h : target = node <;> simp [h, eq_comm]

theorem outgoing_dropOutgoing (a : Adjacency) (rel : RelId) (source node : NodeId) :
    (a.dropOutgoing rel source).outgoing node =
      if node = source then (a.outgoing node).filter (· != rel) else a.outgoing node := by
  simp only [dropOutgoing, outgoing, Std.TreeMap.getD_modify, Std.LawfulEqOrd.compare_eq_iff_eq]
  by_cases h : node = source
  · subst h
    rw [if_pos rfl, if_pos rfl, Std.TreeMap.getD_eq_getD_getElem?]
    cases a.leaving[node]? <;> rfl
  · rw [if_neg h, if_neg (Ne.symm h)]

theorem incoming_dropIncoming (a : Adjacency) (rel : RelId) (target node : NodeId) :
    (a.dropIncoming rel target).incoming node =
      if node = target then (a.incoming node).filter (· != rel) else a.incoming node := by
  simp only [dropIncoming, incoming, Std.TreeMap.getD_modify, Std.LawfulEqOrd.compare_eq_iff_eq]
  by_cases h : node = target
  · subst h
    rw [if_pos rfl, if_pos rfl, Std.TreeMap.getD_eq_getD_getElem?]
    cases a.arriving[node]? <;> rfl
  · rw [if_neg h, if_neg (Ne.symm h)]

@[simp] theorem incoming_dropOutgoing (a : Adjacency) (rel : RelId) (source node : NodeId) :
    (a.dropOutgoing rel source).incoming node = a.incoming node := rfl

@[simp] theorem outgoing_dropIncoming (a : Adjacency) (rel : RelId) (target node : NodeId) :
    (a.dropIncoming rel target).outgoing node = a.outgoing node := rfl

end Adjacency

end GraphWalk
