import GraphWalk.Error
import GraphWalk.Graph.Adjacency

/-!
The graph store: nodes and relationships by identity, nodes by element id, and the adjacency lists.
An operation that fails leaves the graph as it was.
-/

namespace GraphWalk

structure Graph where
  nodes : Std.TreeMap NodeId Node := ∅
  relationships : Std.TreeMap RelId Relationship := ∅
  elementIds : Std.TreeMap String NodeId := ∅
  adjacency : Adjacency := {}
  nextNode : Nat := 0
  nextRelationship : Nat := 0

namespace Graph

def empty : Graph := {}

instance : Inhabited Graph := ⟨empty⟩

def node? (g : Graph) (id : NodeId) : Option Node := g.nodes[id]?

def relationship? (g : Graph) (id : RelId) : Option Relationship := g.relationships[id]?

def nodeByElementId? (g : Graph) (elementId : String) : Option NodeId := g.elementIds[elementId]?

def labels (g : Graph) (id : NodeId) : List String := (g.node? id).elim [] Node.labels

def nodeIds (g : Graph) : List NodeId := g.nodes.keys

def nodeCount (g : Graph) : Nat := g.nodes.size

def relationshipCount (g : Graph) : Nat := g.relationships.size

/-- The relationships at a node in one direction, of one type if a type is given. -/
def incident (g : Graph) (node : NodeId) (d : Direction) (type : Option String := none) :
    List Relationship :=
  ((g.adjacency.incident node d).filterMap g.relationship?).filter fun r => type.all (· == r.type)

/-- How many relationships a node has in one direction; a loop counts twice in both. -/
def degree (g : Graph) (node : NodeId) (d : Direction) : Nat := (g.incident node d).length

/-- The first name not taken among `elementId` and its extensions by apostrophes. -/
def freshElementId (taken : String → Bool) : Nat → String → String
  | 0, elementId => elementId
  | tries + 1, elementId =>
    if taken elementId then freshElementId taken tries (elementId ++ "'") else elementId

/-- Stores a node under its id and element id. -/
def putNode (g : Graph) (n : Node) : Graph :=
  { g with
    nodes := g.nodes.insert n.id n
    elementIds := g.elementIds.insert n.elementId n.id
    adjacency := g.adjacency.addNode n.id
    nextNode := max g.nextNode (n.id.val + 1) }

/-- Adds a node under the next id. As many names as there are nodes cannot all be taken and leave
one more taken. -/
def addNode (g : Graph) (labels : List String) (properties : Json.Fields := []) : NodeId × Graph :=
  let id : NodeId := ⟨g.nextNode⟩
  let elementId := freshElementId g.elementIds.contains g.elementIds.size ("n:" ++ toString id)
  (id, g.putNode ⟨id, elementId, labels, properties⟩)

def insertNode (g : Graph) (n : Node) : Except WalkError Graph :=
  if g.nodes.contains n.id then .error (.invalidInput (.nodeExists n.id))
  else if n.elementId.isEmpty then .error (.invalidInput .emptyElementId)
  else if g.elementIds.contains n.elementId then
    .error (.invalidInput (.elementIdInUse n.elementId))
  else .ok (g.putNode n)

def ends? (g : Graph) (rel : RelId) : Option (NodeId × NodeId) :=
  (g.relationship? rel).map fun r => (r.source, r.target)

/-- Takes out node `id`, which has the given element id, and its relationships. -/
def dropNode (g : Graph) (id : NodeId) (elementId : String) : Graph :=
  let (removed, adjacency) := g.adjacency.removeNode id g.ends?
  { g with
    nodes := g.nodes.erase id
    relationships := removed.foldl (·.erase ·) g.relationships
    elementIds := g.elementIds.erase elementId
    adjacency := adjacency }

/-- Removes a node and its relationships, if there is such a node. -/
def removeNode? (g : Graph) (id : NodeId) : Option Graph :=
  (g.node? id).map fun n => g.dropNode id n.elementId

/-- Characters that the text of a relationship filter gives a meaning to. -/
def isReserved (c : Char) : Bool := c == '|' || c == '<' || c == '>'

def checkType (type : String) : Except WalkError Unit :=
  if type.isEmpty then .error (.invalidInput .emptyType)
  else if type.toList.any isReserved then .error (.invalidInput (.reservedInType type))
  else .ok ()

def checkNode (g : Graph) (id : NodeId) : Except WalkError Unit :=
  if g.nodes.contains id then .ok () else .error (.nodeNotFound (toString id))

/-- Stores a relationship under its id. -/
def putRelationship (g : Graph) (r : Relationship) : Graph :=
  { g with
    relationships := g.relationships.insert r.id r
    adjacency := g.adjacency.addRelationship r.id r.source r.target
    nextRelationship := max g.nextRelationship (r.id.val + 1) }

def insertRelationship (g : Graph) (r : Relationship) : Except WalkError Graph := do
  checkType r.type
  g.checkNode r.source
  g.checkNode r.target
  if g.relationships.contains r.id then throw (.invalidInput (.relationshipExists r.id))
  return g.putRelationship r

/-- Adds a relationship under the next id. -/
def addRelationship (g : Graph) (source target : NodeId) (type : String) :
    Except WalkError (RelId × Graph) := do
  let id : RelId := ⟨g.nextRelationship⟩
  return (id, ← g.insertRelationship ⟨id, type, source, target, []⟩)

/-- Takes out relationship `id`, which joins the given nodes. -/
def dropRelationship (g : Graph) (id : RelId) (source target : NodeId) : Graph :=
  { g with
    relationships := g.relationships.erase id
    adjacency := g.adjacency.removeRelationship id source target }

/-- Removes a relationship, if there is such a one. -/
def removeRelationship? (g : Graph) (id : RelId) : Option Graph :=
  (g.relationship? id).map fun r => g.dropRelationship id r.source r.target

end Graph

end GraphWalk
