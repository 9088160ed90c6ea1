import GraphWalk.Text.Blank

/-!
Uniqueness policies: what may not repeat during a traversal, and within what bounds.
-/

namespace GraphWalk

inductive Uniqueness.Item where
  | node
  | relationship
deriving DecidableEq, Inhabited, Repr

/-- Within what bounds an item may occur once: the whole traversal, the path that leads to it, the
last steps of that path, or all paths of the same length. -/
inductive Uniqueness.Scope where
  | global
  | path
  | recent
  | level
deriving DecidableEq, Inhabited, Repr

inductive Uniqueness where
  | unrestricted
  | once (item : Uniqueness.Item) (scope : Uniqueness.Scope)
deriving DecidableEq, Inhabited, Repr

namespace Uniqueness

def Item.name : Item → String
  | .node => "NODE"
  | .relationship => "RELATIONSHIP"

def Scope.name : Scope → String
  | .global => "GLOBAL"
  | .path => "PATH"
  | .recent => "RECENT"
  | .level => "LEVEL"

def name : Uniqueness → String
  | .unrestricted => "NONE"
  | .once item scope => item.name ++ "_" ++ scope.name

def Scope.all : List Scope := [.global, .path, .recent, .level]

def all : List Uniqueness :=
  Scope.all.map (.once .node) ++ Scope.all.map (.once .relationship) ++ [.unrestricted]

def names : List String := all.map name

/-- The policy of a name, which may have white space around it and letters of either case. -/
def ofName? (text : String) : Option Uniqueness :=
  let upper := String.ofList ((Text.trim text.toList).map Char.toUpper)
  all.find? (·.name == upper)

/-- The policy used when none is asked for. -/
def default : Uniqueness := .once .node .global

example : ofName? " relationship_Path\n" = some (.once .relationship .path) := by decide +kernel

example : ofName? "NODE" = none := by decide +kernel

end Uniqueness

end GraphWalk
