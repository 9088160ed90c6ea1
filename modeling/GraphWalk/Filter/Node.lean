import GraphWalk.Graph.Basic

/-!
Node filters: nodes named one by one for the four rules, and the references by which callers name
them.
-/

namespace GraphWalk

/-- A way to name a node. -/
inductive NodeRef where
  | node (id : NodeId)
  | number (n : Int)
  | elementId (e : String)
deriving DecidableEq, Inhabited, Repr

namespace NodeRef

/-- The number that is looked up, before it is known whether there is such a node. -/
def target? (r : NodeRef) (g : Graph) : Option NodeId :=
  match r with
  | .node id => some id
  | .number n => if 0 ≤ n then some ⟨n.toNat⟩ else none
  | .elementId e => g.nodeByElementId? e

/-- The node of the graph that is meant, if there is one. -/
def resolve? (r : NodeRef) (g : Graph) : Option NodeId := do
  return (← g.node? (← r.target? g)).id

def render : NodeRef → String
  | .node id => toString id
  | .number n => toString n
  | .elementId e => "'" ++ e ++ "'"

end NodeRef

/-- For every rule the nodes it names, nothing where the rule is not in force. -/
structure NodeFilter where
  allow : Option NodeSet := none
  deny : Option NodeSet := none
  endNodes : Option NodeSet := none
  terminators : Option NodeSet := none

namespace NodeFilter

def empty : NodeFilter := {}

instance : Inhabited NodeFilter := ⟨empty⟩

def hasAllowlist (f : NodeFilter) : Bool := f.allow.isSome

def hasEndNodes (f : NodeFilter) : Bool := f.endNodes.isSome || f.terminators.isSome

def allows (f : NodeFilter) (node : NodeId) : Bool := f.allow.all (·.contains node)

def denies (f : NodeFilter) (node : NodeId) : Bool := f.deny.any (·.contains node)

def isEndNode (f : NodeFilter) (node : NodeId) : Bool := f.endNodes.any (·.contains node)

def isTerminator (f : NodeFilter) (node : NodeId) : Bool := f.terminators.any (·.contains node)

/-- The lists of references as given. The older names of the first two lists are used only where
the newer ones are left out. -/
structure Input where
  allowlist : Option (List NodeRef) := none
  whitelist : Option (List NodeRef) := none
  denylist : Option (List NodeRef) := none
  blacklist : Option (List NodeRef) := none
  endNodes : Option (List NodeRef) := none
  terminators : Option (List NodeRef) := none
deriving Inhabited

/-- The nodes that a list names. An empty list puts no rule in force; references to no node are
passed over, and if that leaves none the rule names no node at all. -/
def resolveList (g : Graph) (refs : Option (List NodeRef)) : Option NodeSet := do
  let refs ← refs
  if refs.isEmpty then none
  else some (Std.TreeSet.ofList (refs.filterMap (·.resolve? g)))

def Input.resolve (i : Input) (g : Graph) : NodeFilter :=
  { allow := resolveList g (i.allowlist <|> i.whitelist)
    deny := resolveList g (i.denylist <|> i.blacklist)
    endNodes := resolveList g i.endNodes
    terminators := resolveList g i.terminators }

end NodeFilter

end GraphWalk
