import GraphWalk.Graph.Snapshot
import GraphWalk.Json.Reader
import GraphWalk.Json.Record

/-!
Nodes, relationships and snapshots as JSON. Properties are written only where there are any.
-/

namespace GraphWalk

open Json (Document)

def Json.listOf? (decode : Json → Option α) (j : Json) : Option (List α) := do
  (← j.items?).mapM decode

/-- The member that holds the properties, if there are any. -/
def propertiesField (properties : Json.Fields) : Json.Fields :=
  if properties.isEmpty then [] else [("properties", .obj properties)]

namespace NodeId

def toJson (id : NodeId) : Json := .ofNat id.val

def ofJson? (j : Json) : Option NodeId := j.unsigned?.map NodeId.mk

end NodeId

namespace RelId

def toJson (id : RelId) : Json := .ofNat id.val

def ofJson? (j : Json) : Option RelId := j.unsigned?.map RelId.mk

end RelId

namespace Node

def fieldNames : List String := ["id", "element_id", "labels", "properties"]

def toJson (n : Node) : Json :=
  .obj ([("id", n.id.toJson), ("element_id", .str n.elementId),
    ("labels", .ofList .str n.labels)] ++ propertiesField n.properties)

def ofJson? (j : Json) : Option Node := do
  let fields ← j.record? fieldNames
  return ⟨← fields.required? "id" NodeId.ofJson?, ← fields.required? "element_id" Json.string?,
    ← fields.optional? "labels" [] (Json.listOf? Json.string?),
    ← fields.optional? "properties" [] Json.fields?⟩

end Node

namespace Relationship

def fieldNames : List String := ["id", "rel_type", "start", "end", "properties"]

def toJson (r : Relationship) : Json :=
  .obj ([("id", r.id.toJson), ("rel_type", .str r.type), ("start", r.source.toJson),
    ("end", r.target.toJson)] ++ propertiesField r.properties)

def ofJson? (j : Json) : Option Relationship := do
  let fields ← j.record? fieldNames
  return ⟨← fields.required? "id" RelId.ofJson?, ← fields.required? "rel_type" Json.string?,
    ← fields.required? "start" NodeId.ofJson?, ← fields.required? "end" NodeId.ofJson?,
    ← fields.optional? "properties" [] Json.fields?⟩

end Relationship

namespace Snapshot

def fieldNames : List String := ["nodes", "relationships"]

def toJson (s : Snapshot) : Json :=
  .obj [("nodes", .ofList Node.toJson s.nodes),
    ("relationships", .ofList Relationship.toJson s.relationships)]

def ofJson? (j : Json) : Option Snapshot := do
  let fields ← j.record? fieldNames
  return ⟨← fields.optional? "nodes" [] (Json.listOf? Node.ofJson?),
    ← fields.optional? "relationships" [] (Json.listOf? Relationship.ofJson?)⟩

/-- Leaves out the unknown members of every record of a list. -/
def prepareRecords? (names : List String) : Document → Option Document
  | .arr items => do
    return .arr (← items.mapM (Document.record? names fun _ value => some value))
  | other => some other

/-- Leaves out the unknown members of a written snapshot, which need not denote anything. -/
def prepare? : Document → Option Document :=
  Document.record? fieldNames fun name =>
    prepareRecords? (if name = "nodes" then Node.fieldNames else Relationship.fieldNames)

def ofText? (text : String) : Option Snapshot := do
  ofJson? (← (← prepare? (← Document.parse? text)).value?)

end Snapshot

end GraphWalk
