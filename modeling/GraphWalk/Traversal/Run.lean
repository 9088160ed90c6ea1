import GraphWalk.Traversal.Evaluation
import GraphWalk.Traversal.Forest
import GraphWalk.Traversal.Frontier

/-!
The traversal: branches are scheduled when the branch before them is expanded, and admitted, visited
and reported when their turn comes. A run is given a number of steps and has no answer if it is not
over by then.
-/

namespace GraphWalk

namespace Traversal

/-- What was counted. -/
structure Stats where
  visited : Nat := 0
  emitted : Nat := 0
  pruned : Nat := 0
  maxDepthReached : Nat := 0
  truncated : Bool := false
deriving DecidableEq, Inhabited, Repr

/-- The paths found, in order, and what was counted. -/
structure Output where
  paths : List Path
  stats : Stats
deriving DecidableEq, Inhabited, Repr

structure State where
  forest : Forest := {}
  frontier : Frontier := {}
  tracker : Tracker
  paths : Array Path := #[]
  stats : Stats := {}
  /-- How often the graph was asked for relationships. -/
  queries : Nat := 0

inductive Progress where
  | running (s : State)
  | finished (s : State)
  | cancelled (visited : Nat)

namespace State

/-- Adds branches to the forest and lets them wait for their turn. -/
def schedule (s : State) (order : Order) (bs : List Branch) : State :=
  { s with
    forest := s.forest.append bs
    frontier := s.frontier.add order (List.range' s.forest.size bs.length) }

/-- The state in which the starts wait. -/
def init (c : Config) (starts : List NodeId) : State :=
  { tracker := .new c.uniqueness c.recentWindow : State }.schedule c.order (starts.map .root)

def countVisit (s : State) (depth : Nat) : State :=
  { s with stats := { s.stats with
      visited := s.stats.visited + 1
      maxDepthReached := max s.stats.maxDepthReached depth } }

def countPruned (s : State) : State :=
  { s with stats := { s.stats with pruned := s.stats.pruned + 1 } }

def emit (s : State) (i : Nat) : State :=
  { s with
    paths := s.paths ++ (s.forest.path? i).toArray
    stats := { s.stats with emitted := s.stats.emitted + 1 } }

/-- Schedules the continuations of branch `i`, which is `b`. -/
def expand (s : State) (g : Graph) (c : Config) (i : Nat) (b : Branch) : State :=
  let rels := c.sampled (c.relationshipFilter.expand g b.node)
  let children := rels.map fun r => ⟨r.otherNode b.node, b.depth + 1, some ⟨i, r.id⟩⟩
  { s.schedule c.order children with
    queries := s.queries + c.relationshipFilter.queries.length }

def truncate (s : State) (truncated : Bool) : State :=
  { s with stats := { s.stats with truncated := truncated } }

/-- Reports and continues branch `i`, which is `b`, as its evaluation says. -/
def follow (s : State) (g : Graph) (c : Config) (i : Nat) (b : Branch) (e : Evaluation) :
    Progress :=
  let s := if e.includes then s.emit i else s
  if e.includes ∧ c.limitReached s.stats.emitted then .finished (s.truncate !s.frontier.isEmpty)
  else if e.expands ∧ c.expandsAt b.depth then .running (s.expand g c i b)
  else .running s

/-- Visits branch `i`, which is `b`, if it is admitted. -/
def visit (s : State) (g : Graph) (c : Config) (i : Nat) (b : Branch) : Progress :=
  let (admitted, tracker) := s.tracker.accept (s.forest.lineageBefore b) b.step b.depth
  let s := { s with tracker := tracker }
  if admitted then
    let s := s.countVisit b.depth
    match c.evaluate b.node (g.labels b.node) b.depth with
    | .prune => .running s.countPruned
    | e => s.follow g c i b e
  else .running s

/-- Takes the branch whose turn it is. -/
def step (s : State) (g : Graph) (c : Config) : Progress :=
  match s.frontier.pop? with
  | none => .finished s
  | some (i, rest) =>
    if c.cancellation.isRequested s.queries then .cancelled s.stats.visited
    else if c.limitReached s.stats.emitted then .finished (s.truncate true)
    else
      match s.forest.branch? i with
      | none => .running { s with frontier := rest }
      | some b => { s with frontier := rest }.visit g c i b

/-- Steps until the traversal is over, at most `fuel` of them. -/
def run (g : Graph) (c : Config) : Nat → State → Option (Except WalkError State)
  | 0, _ => none
  | fuel + 1, s =>
    match s.step g c with
    | .running s => run g c fuel s
    | .finished s => some (.ok s)
    | .cancelled visited => some (.error (.cancelled visited))

def output (s : State) : Output := ⟨s.paths.toList, s.stats⟩

theorem run_succ_of_running {g : Graph} {c : Config} {s t : State} (fuel : Nat)
    (h : s.step g c = .running t) : run g c (fuel + 1) s = run g c fuel t := by
  simp [run, h]

theorem run_succ_of_finished {g : Graph} {c : Config} {s t : State} (fuel : Nat)
    (h : s.step g c = .finished t) : run g c (fuel + 1) s = some (.ok t) := by
  simp [run, h]

theorem run_succ_of_cancelled {g : Graph} {c : Config} {s : State} {visited : Nat} (fuel : Nat)
    (h : s.step g c = .cancelled visited) :
    run g c (fuel + 1) s = some (.error (.cancelled visited)) := by
  simp [run, h]

end State

/-- Refuses a sample of nothing and starts that are not in the graph. -/
def check (g : Graph) (starts : List NodeId) (c : Config) : Except WalkError Unit :=
  if c.sample = some 0 then .error (.invalidInput .zeroSample)
  else
    match starts.find? fun id => (g.node? id).isNone with
    | some missing => .error (.nodeNotFound (toString missing))
    | none => .ok ()

end Traversal

/-- Walks through the graph from the starts; no answer if that takes more than `fuel` steps. -/
def traverse (fuel : Nat) (g : Graph) (starts : List NodeId) (c : Config) :
    Option (Except WalkError Traversal.Output) :=
  match Traversal.check g starts c with
  | .error e => some (.error e)
  | .ok () => (Traversal.State.run g c fuel (.init c starts)).map fun r => r.map (·.output)

end GraphWalk
