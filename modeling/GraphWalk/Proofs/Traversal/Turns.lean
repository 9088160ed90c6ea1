import GraphWalk.Proofs.Traversal.Search
import Mathlib.Logic.Function.Iterate

/-!
The turns of a search one after the other, as if neither a limit nor the caller stopped it.

What is visited and what is found only grows from turn to turn.
-/

namespace GraphWalk

namespace Search

variable {g : Graph} {c : Config} {x : Search} {p : Path} {rest : List Path}

/-- One more turn, if a path waits. -/
def turn (g : Graph) (c : Config) (x : Search) : Search :=
  match x.waiting with
  | [] => x
  | p :: rest => x.advance g c p rest

lemma turn_of_nil (hw : x.waiting = []) : x.turn g c = x := by
  unfold turn
  rw [hw]

lemma turn_of_cons (hw : x.waiting = p :: rest) : x.turn g c = x.advance g c p rest := by
  unfold turn
  rw [hw]

lemma turn_limit (l : Option ℕ) : turn g { c with limit := l } = turn g c := rfl

lemma iterate_of_nil {j k : ℕ} (hle : j ≤ k) (hw : ((turn g c)^[j] x).waiting = []) :
    (turn g c)^[k] x = (turn g c)^[j] x := by
  obtain ⟨d, rfl⟩ := Nat.exists_eq_add_of_le' hle
  rw [Function.iterate_add_apply]
  exact Function.iterate_fixed (turn_of_nil hw) d

lemma iterate_eq_of_nil {j k : ℕ} (hj : ((turn g c)^[j] x).waiting = [])
    (hk : ((turn g c)^[k] x).waiting = []) : (turn g c)^[j] x = (turn g c)^[k] x := by
  rcases Nat.le_total j k with hle | hle
  · exact (iterate_of_nil hle hj).symm
  · exact iterate_of_nil hle hk

lemma exists_iterate_of_run (hc : c.Exhaustive) {fuel : ℕ} {r : Except WalkError Search}
    (h : run g c fuel x = some r) :
    ∃ k, r = .ok ((turn g c)^[k] x) ∧ ((turn g c)^[k] x).waiting = [] := by
  have hadvance : ∀ y p rest, y.waiting = p :: rest → (∃ k, y = (turn g c)^[k] x) →
      ∃ k, y.advance g c p rest = (turn g c)^[k] x := by
    rintro _ p rest hw ⟨k, rfl⟩
    exact ⟨k + 1, by rw [Function.iterate_succ_apply', turn_of_cons hw]⟩
  obtain ⟨z, rfl, ⟨k, rfl⟩, hw⟩ := exists_of_run_exhaustive hc hadvance h ⟨0, rfl⟩
  exact ⟨k, rfl, hw⟩

lemma exists_run_of_iterate (hc : c.Exhaustive) {k : ℕ} (hk : ((turn g c)^[k] x).waiting = []) :
    ∃ fuel, run g c fuel x = some (.ok ((turn g c)^[k] x)) := by
  induction k generalizing x with
  | zero =>
    have hw : x.waiting = [] := hk
    refine ⟨1, ?_⟩
    rw [run_succ, step_of_exhaustive hc, hw]
    rfl
  | succ k ih =>
    rw [Function.iterate_succ_apply] at hk ⊢
    obtain ⟨fuel, hfuel⟩ := ih hk
    rcases hw : x.waiting with _ | ⟨p, rest⟩
    · exact ⟨fuel, by rwa [turn_of_nil hw] at hfuel ⊢⟩
    · refine ⟨fuel + 1, ?_⟩
      rw [run_succ, step_of_exhaustive hc, hw]
      rwa [turn_of_cons hw] at hfuel ⊢

section

variable {P : Path → Prop} (hP : ∀ p, P p → ∀ q ∈ c.successors g p, P q)
include hP

lemma exists_visited_turn (hx : ∀ p ∈ x.waiting, P p) : (∀ p ∈ (x.turn g c).waiting, P p) ∧
    ∃ new, (∀ p ∈ new, P p) ∧ (x.turn g c).visited = x.visited ++ new := by
  rcases hw : x.waiting with _ | ⟨p, rest⟩
  · rw [turn_of_nil hw]
    exact ⟨hx, [], by simp, by simp⟩
  · rw [hw] at hx
    have hp : P p := hx p List.mem_cons_self
    have hrest : ∀ q ∈ rest, P q := fun q hq => hx q (List.mem_cons_of_mem p hq)
    rw [turn_of_cons hw]
    cases ha : (x.accept p).1
    · rw [visited_advance_of_refuse ha, advance_of_refuse ha]
      exact ⟨hrest, [], by simp, by simp⟩
    · rw [visited_advance_of_accept ha, advance_of_accept ha]
      refine ⟨fun q hq => ?_, [p], by simpa using hp, rfl⟩
      rcases Order.mem_schedule.mp hq with hq | hq
      · exact hrest q hq
      · exact hP p hp q hq

/-- What holds of the paths that wait and is passed on to continuations holds of all that is visited
from now on. -/
lemma exists_visited_iterate (hx : ∀ p ∈ x.waiting, P p) (k : ℕ) :
    ∃ later, (∀ p ∈ later, P p) ∧ ((turn g c)^[k] x).visited = x.visited ++ later := by
  induction k generalizing x with
  | zero => exact ⟨[], by simp, by simp⟩
  | succ k ih =>
    obtain ⟨hwaiting, new, hnew, hvisited⟩ := exists_visited_turn hP hx
    obtain ⟨later, hlater, heq⟩ := ih hwaiting
    rw [Function.iterate_succ_apply, heq, hvisited, List.append_assoc]
    refine ⟨new ++ later, fun p hp => ?_, rfl⟩
    rcases List.mem_append.mp hp with hp | hp
    · exact hnew p hp
    · exact hlater p hp

end

lemma visited_prefix_of_le {j k : ℕ} (hle : j ≤ k) :
    ((turn g c)^[j] x).visited <+: ((turn g c)^[k] x).visited := by
  obtain ⟨d, rfl⟩ := Nat.exists_eq_add_of_le' hle
  obtain ⟨later, -, heq⟩ := exists_visited_iterate (g := g) (c := c) (x := (turn g c)^[j] x)
    (P := fun _ => True) (fun _ _ _ _ => trivial) (fun _ _ => trivial) d
  rw [Function.iterate_add_apply, heq]
  exact List.prefix_append _ _

/-- A turn finds nothing, or it finds the path whose turn it is and schedules its continuations. -/
lemma found_advance (g : Graph) (c : Config) (x : Search) (p : Path) (rest : List Path) :
    (x.advance g c p rest).found g c = x.found g c ∨
    (x.advance g c p rest).found g c = x.found g c ++ [p] ∧
      (x.advance g c p rest).waiting = c.order.schedule rest (c.successors g p) := by
  cases ha : (x.accept p).1
  · rw [found, visited_advance_of_refuse ha]
    exact .inl rfl
  · rw [found, visited_advance_of_accept ha, List.filter_append, List.filter_singleton]
    cases (c.judge g p).includes
    · exact .inl (List.append_nil _)
    · rw [advance_of_accept ha]
      exact .inr ⟨rfl, rfl⟩

end Search

end GraphWalk
