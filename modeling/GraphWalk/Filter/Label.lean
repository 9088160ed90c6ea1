import GraphWalk.Text.Blank
import GraphWalk.Text.Split

/-!
Label filters. A text such as `-Secret|>Movie|+Person:Actor` is a list of clauses separated by bars;
a clause has a rule sign and the labels that a node must all carry, separated by colons. A clause
without a sign allows; a lone star is a wildcard, which lifts the restriction of the allowing
clauses. A colon or a bar inside a label is written with a backslash.
-/

namespace GraphWalk

/-- What becomes of a path at a node that matches a clause. -/
inductive LabelRule where
  | deny
  | terminate
  | endNode
  | allow
deriving DecidableEq, Inhabited, Repr

inductive LabelClause where
  | wildcard
  | alternative (rule : LabelRule) (labels : List String)
deriving DecidableEq, Inhabited, Repr

/-- For every rule the alternatives, each a list of labels that a node must all carry. -/
structure LabelFilter where
  deny : List (List String) := []
  terminate : List (List String) := []
  endNode : List (List String) := []
  allow : List (List String) := []
  wildcard : Bool := false
deriving DecidableEq, Inhabited, Repr

namespace LabelRule

def sign : LabelRule → Char
  | .deny => '-'
  | .terminate => '/'
  | .endNode => '>'
  | .allow => '+'

def all : List LabelRule := [.deny, .terminate, .endNode, .allow]

def ofSign? (c : Char) : Option LabelRule := all.find? (·.sign == c)

theorem ofSign?_sign (r : LabelRule) : ofSign? r.sign = some r := by
  cases r <;> rfl

end LabelRule

namespace LabelClause

/-- The rule of a clause and the text behind its sign. -/
def signed (cs : List Char) : LabelRule × List Char :=
  match cs with
  | [] => (.allow, [])
  | c :: rest =>
    match LabelRule.ofSign? c with
    | some rule => (rule, rest)
    | none => (.allow, cs)

/-- The labels between the colons. -/
def labelsOf (cs : List Char) : List String :=
  ((Text.splitUnescaped ':' cs).map fun label => String.ofList (Text.unescape (Text.trim label)))
    |>.filter (!·.isEmpty)

/-- Reads a clause; one without labels says nothing. -/
def parse? (text : List Char) : Option LabelClause :=
  let cs := Text.trim text
  if cs = ['*'] then some .wildcard
  else
    let (rule, body) := signed cs
    let labels := labelsOf body
    if labels.isEmpty then none else some (.alternative rule labels)

/-- The labels of a clause for one rule. -/
def labelsFor? (rule : LabelRule) : LabelClause → Option (List String)
  | .alternative r labels => if r = rule then some labels else none
  | .wildcard => none

end LabelClause

namespace LabelFilter

def none : LabelFilter := {}

def ofClauses (clauses : List LabelClause) : LabelFilter :=
  let alternatives := fun rule => clauses.filterMap (·.labelsFor? rule)
  let wildcard := clauses.contains .wildcard
  { deny := alternatives .deny
    terminate := alternatives .terminate
    endNode := alternatives .endNode
    allow := if wildcard then [] else alternatives .allow
    wildcard := wildcard }

/-- The clauses of a text. -/
def clauses (text : String) : List LabelClause :=
  (Text.splitUnescaped '|' text.toList).filterMap LabelClause.parse?

/-- Reads a filter; every text is one. -/
def parse (text : String) : LabelFilter := ofClauses (clauses text)

def parseOption (text : Option String) : LabelFilter := text.elim none parse

def rule (f : LabelFilter) : LabelRule → List (List String)
  | .deny => f.deny
  | .terminate => f.terminate
  | .endNode => f.endNode
  | .allow => f.allow

/-- Whether a node with these labels matches an alternative of the rule. -/
def matchesRule (f : LabelFilter) (rule : LabelRule) (labels : List String) : Bool :=
  (f.rule rule).any (·.all labels.contains)

def hasAllowlist (f : LabelFilter) : Bool := !f.allow.isEmpty

/-- Whether a path has to end at nodes that a clause names. -/
def hasEndRules (f : LabelFilter) : Bool := !f.terminate.isEmpty || !f.endNode.isEmpty

def isEmpty (f : LabelFilter) : Bool := LabelRule.all.all fun rule => (f.rule rule).isEmpty

example : parse "-Deny|/Stop|>End|+A:B|Bare" =
    { deny := [["Deny"]], terminate := [["Stop"]], endNode := [["End"]],
      allow := [["A", "B"], ["Bare"]] } := by
  decide +kernel

example : parse "*|+Person|-Odd\\:Name" = { deny := [["Odd:Name"]], wildcard := true } := by
  decide +kernel

end LabelFilter

end GraphWalk
