import GraphWalk.Ident
import GraphWalk.Json.Printer
import GraphWalk.Procedure
import GraphWalk.Uniqueness

/-!
Errors of the store and of a traversal, by cause, and their messages.
-/

namespace GraphWalk

/-- Why a value is refused. -/
inductive InvalidInput where
  | nodeExists (id : NodeId)
  | emptyElementId
  | elementIdInUse (elementId : String)
  | emptyType
  | reservedInType (type : String)
  | relationshipExists (id : RelId)
  | zeroSample
  | negativeMinLevel (level : Int)
  | sampleNotPositive (sample : Int)
  | windowNotPositive (window : Int)
  | idNotInteger (key : String) (number : Json.Number)
  | mapWithoutId (key : String)
  | notAReference (key : String) (kind : String)
  | stated (reason : String)
deriving DecidableEq, Inhabited, Repr

def InvalidInput.reason : InvalidInput → String
  | .nodeExists id => "Node " ++ toString id ++ " already exists"
  | .emptyElementId => "Element id must not be empty"
  | .elementIdInUse e => "Element id '" ++ e ++ "' already in use"
  | .emptyType => "Relationship type must not be empty"
  | .reservedInType t => "Relationship type '" ++ t ++ "' must not contain '|', '<' or '>'"
  | .relationshipExists id => "Relationship " ++ toString id ++ " already exists"
  | .zeroSample => "sample must be a positive integer"
  | .negativeMinLevel n => "minLevel must not be negative, got " ++ toString n
  | .sampleNotPositive n => "sample must be a positive integer, got " ++ toString n
  | .windowNotPositive n => "recentWindow must be a positive integer, got " ++ toString n
  | .idNotInteger key n => key ++ ": node id must be an integer, got " ++ n.render
  | .mapWithoutId key => key ++ ": node map needs an 'id' or 'elementId'"
  | .notAReference key kind => key ++ ": expected a node reference, got " ++ kind
  | .stated reason => reason

/-- Errors of the store and of a traversal. -/
inductive WalkError where
  | invalidInput (why : InvalidInput)
  | invalidUniqueness (name : String)
  | invalidMinLevel (procedure : Procedure) (level : Int)
  | nodeNotFound (reference : String)
  | cancelled (visited : Nat)
deriving DecidableEq, Inhabited, Repr

namespace WalkError

def message : WalkError → String
  | .invalidInput why => "invalid input: " ++ why.reason
  | .invalidUniqueness name =>
    "Invalid uniqueness: '" ++ name ++ "'. Valid values are: " ++
      String.intercalate ", " Uniqueness.names
  | .invalidMinLevel procedure level =>
    "minLevel can only be 0 or 1 in " ++ procedure.name ++ "(), got " ++ toString level
  | .nodeNotFound reference => "node not found: " ++ reference
  | .cancelled visited => "traversal cancelled after visiting " ++ toString visited ++ " nodes"

/-- Whether the error can only arise before any node is visited. -/
def isConfigError : WalkError → Bool
  | .cancelled _ => false
  | _ => true

end WalkError

/-- The least levels that a procedure accepts: any, or 0 and 1 where every node is reached once. -/
def Procedure.checkMinLevel (p : Procedure) (level : Int) : Except WalkError Unit :=
  if p.isSubgraph && !(level == 0 || level == 1) then .error (.invalidMinLevel p level) else .ok ()

theorem Procedure.checkMinLevel_eq_ok_iff (p : Procedure) (level : Int) :
    p.checkMinLevel level = .ok () ↔ (p.isSubgraph = true → level = 0 ∨ level = 1) := by
  unfold checkMinLevel
  cases p.isSubgraph
  · simp
  · simp only [Bool.true_and]
    by_cases h : level = 0 <;> simp [h]

end GraphWalk
