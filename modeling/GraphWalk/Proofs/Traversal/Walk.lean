import GraphWalk.Proofs.Traversal.Policy
import GraphWalk.Traversal.Evaluation
import Mathlib.Data.List.Nodup
import Mathlib.Data.Nat.Basic
import Mathlib.Tactic.Common

/-!
Walks: the paths that the filters of a configuration let a traversal take.
-/

namespace GraphWalk

namespace Config

variable (c : Config) (g : Graph)

/-- The relationships by which a path that ends at `node` is continued, in order. -/
def offered (node : NodeId) : List Relationship :=
  c.sampled (c.relationshipFilter.expand g node)

/-- The hops by which a path that ends at `node` is continued, in order. -/
def nextHops (node : NodeId) : List Hop :=
  (c.offered g node).map fun r => ⟨r.id, r.otherNode node⟩

/-- What becomes of a path that arrives at its end. -/
def judge (p : Path) : Evaluation := c.evaluate p.last (g.labels p.last) p.length

/-- Whether a path that is visited is continued. -/
def continues (p : Path) : Bool := (c.judge g p).expands && c.expandsAt p.length

/-- The continuations of a path, in order. -/
def children (p : Path) : List Path := (c.nextHops g p.last).map p.push

/-- What a path that is visited is continued to, in order. -/
def successors (p : Path) : List Path := if c.continues g p then c.children g p else []

/-- The filters let a traversal from `starts` take the path: it is continued at every node before
its end, each time by a relationship that is offered there. -/
structure Walk (starts : List NodeId) (p : Path) : Prop where
  start : p.start ∈ starts
  hops : p.EachHop fun q hop => c.continues g q = true ∧ hop ∈ c.nextHops g q.last

/-- The policy allows every hop of the path after the hops before it. -/
def Allows (p : Path) : Prop := p.EachHop (c.uniqueness.Permits (max 1 c.recentWindow))

variable {c g} {starts : List NodeId}

@[simp] lemma walk_single {node : NodeId} : c.Walk g starts (.single node) ↔ node ∈ starts :=
  ⟨fun h => h.start, fun h => ⟨h, Path.eachHop_single _ node⟩⟩

@[simp] lemma walk_push {p : Path} {hop : Hop} : c.Walk g starts (p.push hop) ↔
    c.Walk g starts p ∧ c.continues g p = true ∧ hop ∈ c.nextHops g p.last := by
  constructor
  · intro h
    obtain ⟨hops, hlast⟩ := Path.eachHop_push.mp h.hops
    exact ⟨⟨h.start, hops⟩, hlast⟩
  · rintro ⟨h, hlast⟩
    exact ⟨h.start, Path.eachHop_push.mpr ⟨h.hops, hlast⟩⟩

lemma allows_push {p : Path} {hop : Hop} : c.Allows (p.push hop) ↔
    c.Allows p ∧ c.uniqueness.Permits (max 1 c.recentWindow) p hop := Path.eachHop_push

lemma mem_successors {p q : Path} : q ∈ c.successors g p ↔
    c.continues g p = true ∧ ∃ hop ∈ c.nextHops g p.last, q = p.push hop := by
  unfold successors
  split
  · next h => simp [h, children, eq_comm]
  · next h => simp [h]

lemma push_mem_successors {p q : Path} {hop : Hop} : q.push hop ∈ c.successors g p ↔
    q = p ∧ c.continues g p = true ∧ hop ∈ c.nextHops g p.last := by
  rw [mem_successors]
  constructor
  · rintro ⟨hp, hop', hmem, heq⟩
    obtain ⟨rfl, rfl⟩ := Path.push_inj heq
    exact ⟨rfl, hp, hmem⟩
  · rintro ⟨rfl, hp, hmem⟩
    exact ⟨hp, hop, hmem, rfl⟩

lemma nodup_nextHops (node : NodeId) : (c.nextHops g node).Nodup := by
  have hids : ((c.offered g node).map Relationship.id).Nodup := by
    have hall : ((c.relationshipFilter.expand g node).map Relationship.id).Nodup :=
      nodup_map_distinctBy ∅ _
    unfold offered sampled
    split
    · exact hall
    · exact hall.sublist ((List.take_sublist _ _).map _)
  refine List.Nodup.of_map Hop.rel ?_
  rw [nextHops, List.map_map]
  exact hids

lemma nodup_successors (p : Path) : (c.successors g p).Nodup := by
  unfold successors
  split
  · exact (nodup_nextHops p.last).map fun _ _ h => (Path.push_inj h).2
  · exact List.nodup_nil

lemma Walk.of_mem_successors {p q : Path} (h : c.Walk g starts p) (hq : q ∈ c.successors g p) :
    c.Walk g starts q := by
  obtain ⟨hp, hop, hmem, rfl⟩ := mem_successors.mp hq
  exact walk_push.mpr ⟨h, hp, hmem⟩

end Config

end GraphWalk
