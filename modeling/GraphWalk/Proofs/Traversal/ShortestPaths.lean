import GraphWalk.Proofs.Traversal.Claiming
import GraphWalk.Proofs.Traversal.Evaluation
import GraphWalk.Proofs.Traversal.Queue
import GraphWalk.Proofs.Traversal.Termination
import Mathlib.Order.Bounds.Defs

/-!
Breadth first, with every node once, a traversal finds shortest walks.

Paths wait in the order of their lengths, so the first one that arrives at a node and claims it is
as short as any. What it cuts off is not lost: a node that continues a path continues every
shorter path as well.
-/

namespace GraphWalk

namespace Config

variable {c : Config} {g : Graph} {p q : Path}

lemma continues_of_le (hlast : p.last = q.last) (hle : p.length ≤ q.length)
    (h : c.continues g q = true) : c.continues g p = true := by
  unfold continues judge at h ⊢
  rw [Bool.and_eq_true] at h ⊢
  rw [hlast]
  exact ⟨expands_evaluate_of_le hle h.1, expandsAt_of_le hle h.2⟩

end Config

namespace Search

variable {g : Graph} {c : Config} {starts : List NodeId} {x : Search} {p q : Path}
  {rest : List Path}

/-- The end of `q` is reached by a path not longer than `q`, or will be by `q` itself. -/
def Covers (x : Search) (q : Path) : Prop :=
  q ∈ x.waiting ∨ ∃ p ∈ x.visited, p.last = q.last ∧ p.length ≤ q.length

/-- What holds before every turn of a search that goes breadth first and visits nodes once. -/
structure Layered (g : Graph) (c : Config) (starts : List NodeId) (x : Search) : Prop where
  claims : x.Claims
  walk : ∀ p ∈ x.seen, c.Walk g starts p
  sorted : x.seen.Pairwise fun p q => p.length ≤ q.length
  span : x.waiting.Pairwise fun p q => q.length ≤ p.length + 1
  roots : ∀ node ∈ starts, x.Covers (.single node)
  successors : ∀ p ∈ x.visited, ∀ q ∈ c.successors g p, x.Covers q

lemma layered_init (hu : c.uniqueness = .once .node .global) :
    (init c starts).Layered g c starts where
  claims := claims_init hu
  walk := walk_init
  sorted := queued_init.sorted
  span := queued_init.span
  roots := fun _ hnode => .inl (List.mem_map_of_mem hnode)
  successors := fun _ hp => absurd hp List.not_mem_nil

namespace Layered

lemma queued (h : x.Layered g c starts) : x.Queued := ⟨h.sorted, h.span⟩

lemma covers_advance (h : x.Layered g c starts) (hw : x.waiting = p :: rest) (hq : x.Covers q) :
    (x.advance g c p rest).Covers q := by
  cases ha : (x.accept p).1
  · rw [Covers, visited_advance_of_refuse ha, advance_of_refuse ha]
    rcases hq with hq | hq
    · rw [hw] at hq
      rcases List.mem_cons.mp hq with rfl | hq
      · obtain ⟨v, hv, hlast⟩ := List.mem_map.mp ((h.claims.accept_eq_false_iff q).mp ha)
        exact .inr ⟨v, hv, hlast, (h.queued.length_le hw).1 v hv⟩
      · exact .inl hq
    · exact .inr hq
  · rw [Covers, visited_advance_of_accept ha, advance_of_accept ha]
    rcases hq with hq | ⟨v, hv, hlast, hle⟩
    · rw [hw] at hq
      rcases List.mem_cons.mp hq with rfl | hq
      · exact .inr ⟨q, by simp, rfl, le_rfl⟩
      · exact .inl (Order.mem_schedule.mpr (.inl hq))
    · exact .inr ⟨v, List.mem_append_left _ hv, hlast, hle⟩

lemma successors_advance (h : x.Layered g c starts) (ho : c.order = .breadthFirst)
    (hw : x.waiting = p :: rest) : ∀ v ∈ (x.advance g c p rest).visited,
      ∀ q ∈ c.successors g v, (x.advance g c p rest).Covers q := by
  have hkeep : ∀ v ∈ x.visited, ∀ q ∈ c.successors g v, (x.advance g c p rest).Covers q :=
    fun v hv q hq => h.covers_advance hw (h.successors v hv q hq)
  cases ha : (x.accept p).1
  · rw [visited_advance_of_refuse ha]
    exact hkeep
  · rw [visited_advance_of_accept ha]
    intro v hv q hq
    rcases List.mem_append.mp hv with hv | hv
    · exact hkeep v hv q hq
    · obtain rfl := List.mem_singleton.mp hv
      exact .inl (waiting_advance_of_breadthFirst ho ha ▸ List.mem_append_right rest hq)

lemma advance (h : x.Layered g c starts) (ho : c.order = .breadthFirst)
    (hw : x.waiting = p :: rest) : (x.advance g c p rest).Layered g c starts where
  claims := h.claims.advance p rest
  walk := walk_advance h.walk hw
  sorted := (h.queued.advance ho hw).sorted
  span := (h.queued.advance ho hw).span
  roots := fun node hnode => h.covers_advance hw (h.roots node hnode)
  successors := h.successors_advance ho hw

end Layered

end Search

open Traversal

end GraphWalk
