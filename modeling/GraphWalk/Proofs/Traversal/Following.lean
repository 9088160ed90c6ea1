import GraphWalk.Proofs.Traversal.Turns
import GraphWalk.Proofs.Traversal.Unfolding

/-!
One search follows another one that has paths to visit which it has not.

When a path takes its turn in the first search, the second one lets the same path take its turn or
does nothing. So it is enough to say what relates the two before a turn: what they have found when
nothing waits any more are the results of two traversals.
-/

namespace GraphWalk

open Traversal

namespace Search

variable {g : Graph} {c c' : Config} {R : Search → Search → Prop} {x y : Search}

/-- Every turn of the first search keeps what relates it to the second one, which takes the turn as
well or none. -/
def Follows (g : Graph) (c c' : Config) (R : Search → Search → Prop) : Prop :=
  ∀ x y p rest, R x y → x.waiting = p :: rest → R (x.advance g c p rest) y ∨
    ∃ rest', y.waiting = p :: rest' ∧ R (x.advance g c p rest) (y.advance g c' p rest')

lemma Follows.exists_iterate (hfollows : Follows g c c' R) (h : R x y) (k : ℕ) :
    ∃ j, R ((turn g c)^[k] x) ((turn g c')^[j] y) := by
  induction k generalizing x y with
  | zero => exact ⟨0, h⟩
  | succ k ih =>
    rw [Function.iterate_succ_apply]
    rcases hw : x.waiting with _ | ⟨p, rest⟩
    · rw [turn_of_nil hw]
      exact ih h
    · rw [turn_of_cons hw]
      rcases hfollows x y p rest h hw with hidle | ⟨rest', hw', hboth⟩
      · exact ih hidle
      · obtain ⟨j, hj⟩ := ih hboth
        rw [← turn_of_cons hw', ← Function.iterate_succ_apply] at hj
        exact ⟨j + 1, hj⟩

end Search

namespace Traversal

variable {g : Graph} {c c' : Config} {R : Search → Search → Prop} {starts : List NodeId}
  {fuel fuel' : ℕ} {out out' : Output}

lemma exists_iterate_of_traverse (hc : c.Exhaustive)
    (h : traverse fuel g starts c = some (.ok out)) :
    ∃ k, ((Search.turn g c)^[k] (.init c starts)).waiting = [] ∧
      out.paths = ((Search.turn g c)^[k] (.init c starts)).found g c := by
  obtain ⟨z, hrun, rfl, -⟩ := exists_search_of_traverse h
  obtain ⟨k, hz, hw⟩ := Search.exists_iterate_of_run hc hrun
  cases hz
  exact ⟨k, hw, rfl⟩

/-- The searches of two traversals, of which one follows the other, are related when both have come
to an end. -/
theorem exists_related_of_traverse (hc : c.Exhaustive) (hc' : c'.Exhaustive)
    (hfollows : Search.Follows g c c' R) (hinit : R (.init c starts) (.init c' starts))
    (hend : ∀ x y, R x y → x.waiting = [] → y.waiting = [])
    (h : traverse fuel g starts c = some (.ok out))
    (h' : traverse fuel' g starts c' = some (.ok out')) :
    ∃ x y, R x y ∧ out.paths = x.found g c ∧ out'.paths = y.found g c' := by
  obtain ⟨k, hw, hpaths⟩ := exists_iterate_of_traverse hc h
  obtain ⟨k', hw', hpaths'⟩ := exists_iterate_of_traverse hc' h'
  obtain ⟨j, hj⟩ := hfollows.exists_iterate hinit k
  refine ⟨_, _, hj, hpaths, ?_⟩
  -- nothing waits in the second search either, so it is where its own run has ended
  rw [hpaths', Search.iterate_eq_of_nil hw' (hend _ _ hj hw)]

end Traversal

end GraphWalk
