import GraphWalk.Json.Document

/-!
Records in JSON: objects with known members, or lists of the members' values in their order. A list
may stop early; what is left off is absent.
-/

namespace GraphWalk.Json

/-- The members of a record. Those that are not known are left in place and never looked up. -/
def record? (names : List String) : Json → Option Fields
  | .obj fields => some fields
  | .arr items => if items.length ≤ names.length then some (names.zip items) else none
  | _ => none

/-- A member that must be there. -/
def Fields.required? (fields : Fields) (name : String) (decode : Json → Option α) : Option α := do
  decode (← fields.lookup name)

/-- A member that has a value when it is absent. -/
def Fields.optional? (fields : Fields) (name : String) (absent : α) (decode : Json → Option α) :
    Option α :=
  match fields.lookup name with
  | none => some absent
  | some value => decode value

/-- Leaves out the unknown members of a written record, before its value is taken, and prepares the
known ones. A known member may not be repeated. -/
def Document.record? (names : List String) (prepare : String → Document → Option Document) :
    Document → Option Document
  | .obj members => do
    let known ← selectMembers? names members
    return .obj (← known.mapM fun (name, value) => do return (some name, ← prepare name value))
  | .arr items =>
    if items.length ≤ names.length then do
      return .arr (← (names.zip items).mapM fun (name, value) => prepare name value)
    else none
  | other => some other

end GraphWalk.Json
