import GraphWalk.Distinct
import GraphWalk.Graph.Basic
import GraphWalk.Text.Blank
import GraphWalk.Text.Split

/-!
Relationship filters. A text such as `KNOWS|ACTED_IN>|<DIRECTED` is a list of entries separated by
bars; an entry has a type and arrow heads that say in which direction it is followed. Without a
type, or with a star, every type is meant; without an arrow head, or with two that differ, both
directions. A filter without entries admits everything.
-/

namespace GraphWalk

structure RelationshipFilter.Entry where
  type : Option String
  direction : Direction
deriving DecidableEq, Inhabited, Repr

structure RelationshipFilter where
  entries : List RelationshipFilter.Entry := []
deriving DecidableEq, Inhabited, Repr

namespace RelationshipFilter

namespace Entry

/-- The direction that an arrow head shows. -/
def ofArrow? : Char → Option Direction
  | '<' => some .incoming
  | '>' => some .outgoing
  | _ => none

/-- The arrow head at the front of a text, if it has one, and the rest. -/
def frontArrow (cs : List Char) : Option Direction × List Char :=
  match cs with
  | [] => (none, [])
  | c :: rest =>
    match ofArrow? c with
    | some d => (some d, rest)
    | none => (none, cs)

/-- The arrow head at the back of a text, if it has one, and the rest. -/
def backArrow (cs : List Char) : Option Direction × List Char :=
  let (arrow, rest) := frontArrow cs.reverse
  (arrow, rest.reverse)

/-- The direction that two arrow heads show together. -/
def combine : Option Direction → Option Direction → Direction
  | none, none => .both
  | some d, none | none, some d => d
  | some d, some e => if d = e then d else .both

/-- Reads an entry; blank text is none. -/
def parse? (text : List Char) : Option Entry :=
  let cs := Text.trim text
  if cs.isEmpty then none
  else
    let (front, cs) := frontArrow cs
    let (back, cs) := backArrow cs
    let type := Text.trim cs
    some ⟨if type.isEmpty ∨ type = ['*'] then none else some (String.ofList type),
      combine front back⟩

def admitsType (e : Entry) (type : String) : Bool := e.type.all (· == type)

/-- Whether the entry lets a relationship be followed from `node`. -/
def admits (e : Entry) (r : Relationship) (node : NodeId) : Bool :=
  e.admitsType r.type && e.direction.admits (r.directionFrom node)

def render (e : Entry) : String :=
  let type := e.type.getD ""
  match e.direction with
  | .outgoing => type ++ ">"
  | .incoming => "<" ++ type
  | .both => type

end Entry

def any : RelationshipFilter := {}

def isAny (f : RelationshipFilter) : Bool := f.entries.isEmpty

/-- Reads a filter; every text is one. -/
def parse (text : String) : RelationshipFilter :=
  ⟨(Text.split '|' text.toList).filterMap Entry.parse?⟩

def parseOption (text : Option String) : RelationshipFilter := text.elim any parse

def render (f : RelationshipFilter) : String :=
  String.intercalate "|" (f.entries.map Entry.render)

/-- What is asked of the graph, in order: the entries, or everything at once. -/
def queries (f : RelationshipFilter) : List Entry :=
  if f.isAny then [⟨none, .both⟩] else f.entries

def admits (f : RelationshipFilter) (r : Relationship) (node : NodeId) : Bool :=
  f.isAny || f.entries.any (·.admits r node)

def admitsType (f : RelationshipFilter) (type : String) : Bool :=
  f.isAny || f.entries.any (·.admitsType type)

/-- The relationships that may be followed from a node, by query and then in the order of the
graph, each once. -/
def expand (f : RelationshipFilter) (g : Graph) (node : NodeId) : List Relationship :=
  distinctBy Relationship.id ∅ (f.queries.flatMap fun e => g.incident node e.direction e.type)

example : parse "KNOWS | ACTED_IN> |<DIRECTED|<>|" =
    ⟨[⟨some "KNOWS", .both⟩, ⟨some "ACTED_IN", .outgoing⟩, ⟨some "DIRECTED", .incoming⟩,
      ⟨none, .both⟩]⟩ := by
  decide +kernel

example : (parse ">LIKES|*").render = "LIKES>|" := by decide +kernel

end RelationshipFilter

end GraphWalk
