import GraphWalk.Options.Reference
import GraphWalk.Traversal.Config

/-!
The record of options of a procedure: reading it, and turning it into the configuration of a
traversal of a given graph. Unknown members are passed over, and `null` means the same as nothing.
-/

namespace GraphWalk

structure Options where
  bfs : Option Bool := none
  filterStartNode : Option Bool := none
  labelFilter : Option String := none
  limit : Option Int := none
  maxLevel : Option Int := none
  minLevel : Option Int := none
  optional : Option Bool := none
  recentWindow : Option Int := none
  relationshipFilter : Option String := none
  sample : Option Int := none
  uniqueness : Option String := none
  allowlistNodes : Option Json := none
  whitelistNodes : Option Json := none
  denylistNodes : Option Json := none
  blacklistNodes : Option Json := none
  endNodes : Option Json := none
  terminatorNodes : Option Json := none
deriving Inhabited

def Uniqueness.parse (name : String) : Except WalkError Uniqueness :=
  match ofName? name with
  | some u => .ok u
  | none => .error (.invalidUniqueness name)

/-- The policy of a name that may be left out. -/
def Uniqueness.parseOption (name : Option String) (absent : Uniqueness) :
    Except CommandError Uniqueness :=
  match name with
  | none => .ok absent
  | some name => (parse name).mapError .ofWalk

namespace Options

def integer (j : Json) : Except InvalidConfig Int :=
  match j, j.signed? with
  | _, some n => .ok n
  | .num (.int n), none => .error (.outOfRange n)
  | other, none => .error (.mistyped other .integer)

def boolean : Json → Except InvalidConfig Bool
  | .bool b => .ok b
  | other => .error (.mistyped other .boolean)

def text : Json → Except InvalidConfig String
  | .str s => .ok s
  | other => .error (.mistyped other .text)

/-- A member, if it is there and not `null`. -/
def member (fields : Json.Fields) (key : String) : Option Json :=
  match fields.lookup key with
  | some .null => none
  | value => value

/-- A member that has to be of one type. -/
def typed (fields : Json.Fields) (key : String) (decode : Json → Except InvalidConfig α) :
    Except InvalidConfig (Option α) :=
  match member fields key with
  | none => .ok none
  | some value => (decode value).map some

/-- Reads the members of a record. Typed members are read in the order of their names, and the
first that is not what it should be is reported. -/
def ofFields (fields : Json.Fields) : Except InvalidConfig Options := do
  let bfs ← typed fields "bfs" boolean
  let filterStartNode ← typed fields "filterStartNode" boolean
  let labelFilter ← typed fields "labelFilter" text
  let limit ← typed fields "limit" integer
  let maxLevel ← typed fields "maxLevel" integer
  let minLevel ← typed fields "minLevel" integer
  let optional ← typed fields "optional" boolean
  let recentWindow ← typed fields "recentWindow" integer
  let relationshipFilter ← typed fields "relationshipFilter" text
  let sample ← typed fields "sample" integer
  let uniqueness ← typed fields "uniqueness" text
  return { bfs, filterStartNode, labelFilter, limit, maxLevel, minLevel, optional, recentWindow,
           relationshipFilter, sample, uniqueness,
           allowlistNodes := member fields "allowlistNodes"
           whitelistNodes := member fields "whitelistNodes"
           denylistNodes := member fields "denylistNodes"
           blacklistNodes := member fields "blacklistNodes"
           endNodes := member fields "endNodes"
           terminatorNodes := member fields "terminatorNodes" }

def ofJson : Json → Except CommandError Options
  | .null => .ok {}
  | .obj fields => (ofFields fields).mapError .invalidConfig
  | other => .error (.invalidConfig (.notAMap other.kind))

def positive (refuse : Int → InvalidInput) (n : Option Int) : Except CommandError (Option Nat) :=
  match n with
  | none => .ok none
  | some n => if 0 < n then .ok (some n.toNat) else .error (.invalidInput (refuse n))

/-- A bound; a negative one does not bound. -/
def bound (n : Option Int) : Option Nat := n.bind fun n => if 0 ≤ n then some n.toNat else none

/-- The least level, which must not be negative. -/
def level (n : Int) : Except CommandError Nat :=
  if 0 ≤ n then .ok n.toNat else .error (.invalidInput (.negativeMinLevel n))

/-- The lists of nodes, each read whether or not it is superseded. -/
def nodeLists (o : Options) : Except InvalidInput NodeFilter.Input := do
  let allowlist ← NodeRef.optionalListOfJson "allowlistNodes" o.allowlistNodes
  let whitelist ← NodeRef.optionalListOfJson "whitelistNodes" o.whitelistNodes
  let denylist ← NodeRef.optionalListOfJson "denylistNodes" o.denylistNodes
  let blacklist ← NodeRef.optionalListOfJson "blacklistNodes" o.blacklistNodes
  let endNodes ← NodeRef.optionalListOfJson "endNodes" o.endNodes
  let terminators ← NodeRef.optionalListOfJson "terminatorNodes" o.terminatorNodes
  return { allowlist, whitelist, denylist, blacklist, endNodes, terminators }

/-- The configuration that the options ask for in a graph. -/
def resolve (o : Options) (g : Graph) (procedure : Procedure) : Except CommandError Config := do
  let minLevel := o.minLevel.getD 0
  (procedure.checkMinLevel minLevel).mapError .ofWalk
  let minLevel ← level minLevel
  let uniqueness ← Uniqueness.parseOption o.uniqueness .default
  let sample ← positive .sampleNotPositive o.sample
  let recentWindow ← positive .windowNotPositive o.recentWindow
  let lists ← o.nodeLists.mapError .invalidInput
  return { relationshipFilter := .parseOption o.relationshipFilter
           labelFilter := .parseOption o.labelFilter
           nodeFilter := lists.resolve g
           minLevel
           maxLevel := bound o.maxLevel
           uniqueness
           recentWindow := recentWindow.getD Config.default.recentWindow
           limit := bound o.limit
           optional := o.optional.getD false
           filterStartNode := o.filterStartNode.getD false
           sample
           order := if o.bfs.getD true then .breadthFirst else .depthFirst }

end Options

end GraphWalk
