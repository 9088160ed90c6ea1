import GraphWalk.Command.Basic
import GraphWalk.Json.Reader
import GraphWalk.Json.Record

/-!
Commands as JSON: an object whose member `command` holds the name, or a list that begins with the
name. Absent filters are written as `null`, and a least level of zero and no greatest level are
what is meant when the levels are left out.
-/

namespace GraphWalk.Command

open Json (Document)

/-- The members besides the name. -/
def fieldNames : Procedure → List String
  | .expand => ["start", "relationshipFilter", "labelFilter", "minLevel", "maxLevel"]
  | .shaped _ => ["start", "config"]

def toJson : Command → Json
  | .expand start relationshipFilter labelFilter minLevel maxLevel =>
    .obj [("command", .str (nameOf .expand)), ("start", start),
      ("relationshipFilter", .ofOption .str relationshipFilter),
      ("labelFilter", .ofOption .str labelFilter),
      ("minLevel", .ofInt minLevel), ("maxLevel", .ofInt maxLevel)]
  | .shaped shape start options =>
    .obj [("command", .str (nameOf (.shaped shape))), ("start", start), ("config", options)]

/-- A text or `null`. -/
def optionalText? : Json → Option (Option String)
  | .null => some none
  | .str s => some (some s)
  | _ => none

/-- Reads the members of a command of one procedure. -/
def ofRecord? (procedure : Procedure) (j : Json) : Option Command := do
  let fields ← j.record? (fieldNames procedure)
  let start ← fields.required? "start" some
  match procedure with
  | .expand =>
    return .expand start (← fields.optional? "relationshipFilter" none optionalText?)
      (← fields.optional? "labelFilter" none optionalText?)
      (← fields.optional? "minLevel" 0 Json.signed?)
      (← fields.optional? "maxLevel" (-1) Json.signed?)
  | .shaped shape => return .shaped shape start (← fields.optional? "config" .null some)

def ofJson? (j : Json) : Option Command := do
  match j with
  | .obj _ => ofRecord? (← procedureOf? (← (← j.get? "command").string?)) j
  | .arr (tag :: items) => ofRecord? (← procedureOf? (← tag.string?)) (.arr items)
  | _ => none

/-- Whether no member that a command of this procedure knows is written twice. -/
def isUnrepeated (procedure : Procedure) : Document → Bool
  | .obj members => (Document.selectMembers? ("command" :: fieldNames procedure) members).isSome
  | _ => true

def ofText? (text : String) : Option Command := do
  let document ← Document.parse? text
  let command ← ofJson? (← document.value?)
  if isUnrepeated command.procedure document then some command else none

end GraphWalk.Command
