import GraphWalk.Ident

/-!
Walks through a graph: a start node and the hops taken from it.
-/

namespace GraphWalk

/-- A relationship followed and the node it leads to. -/
structure Hop where
  rel : RelId
  node : NodeId
deriving DecidableEq, Inhabited, Repr

structure Path where
  start : NodeId
  hops : List Hop
deriving DecidableEq, Inhabited, Repr

namespace Path

/-- The path that stays at its start. -/
def single (node : NodeId) : Path := ⟨node, []⟩

/-- The path through the given nodes by the given relationships, which must be one fewer. -/
def ofParts? : List NodeId → List RelId → Option Path
  | [], _ => none
  | start :: nodes, rels =>
    if nodes.length = rels.length then some ⟨start, List.zipWith Hop.mk rels nodes⟩ else none

def push (p : Path) (hop : Hop) : Path := ⟨p.start, p.hops ++ [hop]⟩

def nodes (p : Path) : List NodeId := p.start :: p.hops.map Hop.node

def relationships (p : Path) : List RelId := p.hops.map Hop.rel

def length (p : Path) : Nat := p.hops.length

def isEmpty (p : Path) : Bool := p.hops.isEmpty

/-- The node at which the path ends. -/
def last (p : Path) : NodeId := (p.hops.getLast?.map Hop.node).getD p.start

/-- Nodes in parentheses, relationships in brackets between them. -/
def render (p : Path) : String :=
  p.hops.foldl
    (fun text hop => text ++ "-[" ++ toString hop.rel ++ "]-(" ++ toString hop.node ++ ")")
    ("(" ++ toString p.start ++ ")")

@[simp] theorem nodes_single (node : NodeId) : (single node).nodes = [node] := rfl

@[simp] theorem relationships_single (node : NodeId) : (single node).relationships = [] := rfl

@[simp] theorem nodes_push (p : Path) (hop : Hop) : (p.push hop).nodes = p.nodes ++ [hop.node] := by
  simp [push, nodes]

@[simp] theorem relationships_push (p : Path) (hop : Hop) :
    (p.push hop).relationships = p.relationships ++ [hop.rel] := by
  simp [push, relationships]

@[simp] theorem last_push (p : Path) (hop : Hop) : (p.push hop).last = hop.node := by
  simp [push, last]

theorem length_nodes (p : Path) : p.nodes.length = p.relationships.length + 1 := by
  simp [nodes, relationships]

example : render ⟨⟨0⟩, [⟨⟨1⟩, ⟨2⟩⟩]⟩ = "(0)-[1]-(2)" := by decide +kernel

end Path

end GraphWalk
