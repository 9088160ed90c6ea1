import GraphWalk.Answer
import GraphWalk.Command.Codec
import GraphWalk.Options.Record

/-!
Running commands against a graph. Everything that a command says is checked before the first node is
visited.
-/

namespace GraphWalk

structure Executor where
  graph : Graph
  cancellation : Cancellation := .never

namespace Executor

/-- The configuration that a command asks for. -/
def config (e : Executor) : Command → Except CommandError Config
  | .expand _ relationshipFilter labelFilter minLevel maxLevel => do
    return { relationshipFilter := .parseOption relationshipFilter
             labelFilter := .parseOption labelFilter
             minLevel := ← Options.level minLevel
             maxLevel := Options.bound maxLevel
             uniqueness := .once .relationship .path
             cancellation := e.cancellation }
  | .shaped shape _ options => do
    let config ← (← Options.ofJson options).resolve e.graph (.shaped shape)
    return { config with cancellation := e.cancellation }

/-- All that is checked beforehand: the configuration and then the starts. -/
def prepare (e : Executor) (c : Command) : Except CommandError (Config × List NodeId) := do
  return (← e.config c, ← startNodes e.graph c.start)

def answer (e : Executor) (fuel : Nat) (p : Procedure) (c : Config) (starts : List NodeId) :
    Option (Except WalkError Answer) :=
  match p with
  | .expand | .shaped .paths => (expandPaths fuel e.graph starts c).map (·.map .paths)
  | .shaped .nodes => (subgraphNodes fuel e.graph starts c).map (·.map .nodes)
  | .shaped .subgraph => (subgraphAll fuel e.graph starts c).map (·.map .subgraphs)
  | .shaped .tree => (spanningTree fuel e.graph starts c).map (·.map .paths)

/-- Runs a command; no answer if the traversal takes more than `fuel` steps. -/
def execute (e : Executor) (fuel : Nat) (c : Command) : Option (Except CommandError Answer) :=
  match e.prepare c with
  | .error err => some (.error err)
  | .ok (config, starts) =>
    (e.answer fuel c.procedure config starts).map (·.mapError .ofWalk)

/-- Runs a command given as JSON text. -/
def executeText (e : Executor) (fuel : Nat) (text : String) :
    Option (Except CommandError Answer) :=
  match Command.ofText? text with
  | none => some (.error .undecodable)
  | some c => e.execute fuel c

end Executor

end GraphWalk
