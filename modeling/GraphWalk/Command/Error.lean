import GraphWalk.Error
import GraphWalk.Text.Quoted

/-!
Errors of a command, by cause, and their messages.
-/

namespace GraphWalk

/-- What a value of an options record should have been. -/
inductive Expected where
  | integer
  | boolean
  | text
deriving DecidableEq, Inhabited, Repr

def Expected.describe : Expected → String
  | .integer => "i64"
  | .boolean => "a boolean"
  | .text => "a string"

/-- How a message shows a value that is not what was expected. -/
def Json.describe : Json → String
  | .null => "null"
  | .bool b => "boolean `" ++ (if b then "true" else "false") ++ "`"
  | .num (.int n) => "integer `" ++ toString n ++ "`"
  | .num (.decimal d) => "floating point `" ++ d.render ++ "`"
  | .str s => "string " ++ Text.quote s
  | .arr _ => "sequence"
  | .obj _ => "map"

/-- Why an options record is refused. -/
inductive InvalidConfig where
  | notAMap (kind : String)
  | mistyped (value : Json) (expected : Expected)
  | outOfRange (n : Int)
  | walk (e : WalkError)
deriving DecidableEq, Inhabited

def InvalidConfig.reason : InvalidConfig → String
  | .notAMap kind => "Options must be a map, got " ++ kind
  | .mistyped value expected =>
    "invalid type: " ++ value.describe ++ ", expected " ++ expected.describe
  | .outOfRange n =>
    "invalid value: integer `" ++ toString n ++ "`, expected " ++ Expected.integer.describe
  | .walk e => e.message

/-- Errors of a command. -/
inductive CommandError where
  | invalidInput (why : InvalidInput)
  | invalidConfig (why : InvalidConfig)
  | nodeNotFound (reference : String)
  | aborted (visited : Nat)
  | undecodable
  | unexpectedAnswer (command : String)
deriving DecidableEq, Inhabited

namespace CommandError

def message : CommandError → String
  | .invalidInput why => "invalid input: " ++ why.reason
  | .invalidConfig why => "invalid configuration: " ++ why.reason
  | .nodeNotFound reference => "node not found: " ++ reference
  | .aborted visited =>
    "aborted: Traversal cancelled after visiting " ++ toString visited ++ " nodes"
  | .undecodable => "serialization error: not a command"
  | .unexpectedAnswer command => "internal error: Unexpected output for " ++ command

/-- An error of a traversal as an error of the command that asked for it. -/
def ofWalk : WalkError → CommandError
  | .invalidInput why => .invalidInput why
  | .invalidUniqueness name => .invalidConfig (.walk (.invalidUniqueness name))
  | .invalidMinLevel procedure level => .invalidConfig (.walk (.invalidMinLevel procedure level))
  | .nodeNotFound reference => .nodeNotFound reference
  | .cancelled visited => .aborted visited

end CommandError

end GraphWalk
