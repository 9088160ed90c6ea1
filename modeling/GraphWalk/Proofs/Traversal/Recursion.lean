import GraphWalk.Proofs.Graph.History
import GraphWalk.Proofs.Traversal.Ledger

/-!
Depth first, the traversal is a recursion.

What waits is one list, with the continuations of all paths that are not done yet one behind the
other. Those of the last path visited come first, and none is shown to the tracker before its turn.
So the turns up to the end of these are what a recursive call would have done.
-/

namespace GraphWalk

open Traversal

/-! ### The recursion -/

namespace Ledger

variable {g : Graph} {c : Config} {l l' : Ledger} {p : Path}

end Ledger

namespace Search

variable {g : Graph} {c : Config} {x : Search} {p : Path} {ps rest : List Path} {l l' : Ledger}

end Search

end GraphWalk
