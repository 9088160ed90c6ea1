import GraphWalk.Proofs.Graph.History
import GraphWalk.Proofs.Traversal.Ledger
import GraphWalk.Proofs.Traversal.Queue

/-!
Breadth first, the traversal goes level by level.

The queue never holds one level alone: while the paths at its front take their turns, the level
after them grows behind them. As a turn looks at nothing but the tracker, this makes no difference
to a procedure that finishes one level before it begins the next.
-/

namespace GraphWalk

open Traversal

/-! ### The levels -/

/-- The turns of the paths of a level, from left to right, and the paths to which these are
continued, in this order. -/
def Ledger.sweep (g : Graph) (c : Config) : Ledger → List Path → Ledger × List Path
  | l, [] => (l, [])
  | l, p :: ps =>
    let t := l.turn g c p
    let s := sweep g c t.1 ps
    (s.1, t.2 ++ s.2)

/-- The ledger with which the `n`-th level of a search begins that goes level by level, and the
paths of that level. The starts are level zero. -/
def Traversal.level (g : Graph) (starts : List NodeId) (c : Config) : ℕ → Ledger × List Path
  | 0 => (.new c, starts.map .single)
  | n + 1 =>
    let l := level g starts c n
    l.1.sweep g c l.2

namespace Search

variable {g : Graph} {c : Config} {starts : List NodeId} {x : Search} {ps rest : List Path}

lemma iterate_sweep (ho : c.order = .breadthFirst) (hw : x.waiting = ps ++ rest) :
    ((turn g c)^[ps.length] x).ledger g c = ((x.ledger g c).sweep g c ps).1 ∧
      ((turn g c)^[ps.length] x).waiting = rest ++ ((x.ledger g c).sweep g c ps).2 := by
  induction ps generalizing x rest with
  | nil => exact ⟨rfl, by rw [Ledger.sweep, List.append_nil]; exact hw⟩
  | cons p ps ih =>
    obtain ⟨hledger, hwaiting⟩ := turn_eq (g := g) (c := c) hw
    rw [ho, Order.schedule, List.append_eq, List.append_assoc] at hwaiting
    obtain ⟨hledger', hwaiting'⟩ := ih hwaiting
    rw [hledger] at hledger' hwaiting'
    rw [List.length_cons, Function.iterate_succ_apply, Ledger.sweep]
    exact ⟨hledger', by rw [hwaiting', List.append_assoc]⟩

lemma exists_iterate_level (g : Graph) (starts : List NodeId) (ho : c.order = .breadthFirst)
    (n : ℕ) : ∃ k, ((turn g c)^[k] (init c starts)).ledger g c = (level g starts c n).1 ∧
      ((turn g c)^[k] (init c starts)).waiting = (level g starts c n).2 ∧
      ((level g starts c n).2 = [] ∨ n ≤ k) := by
  induction n with
  | zero => exact ⟨0, ledger_init, rfl, .inr le_rfl⟩
  | succ n ih =>
    obtain ⟨k, hledger, hwaiting, hle⟩ := ih
    obtain ⟨hledger', hwaiting'⟩ := iterate_sweep (g := g) ho
      (hwaiting.trans (List.append_nil (level g starts c n).2).symm)
    rw [← Function.iterate_add_apply, hledger] at hledger' hwaiting'
    refine ⟨(level g starts c n).2.length + k, hledger', hwaiting', ?_⟩
    -- a level that is not empty takes one turn at least
    rcases hlevel : (level g starts c n).2 with _ | ⟨p, ps⟩
    · left
      rw [level, hlevel]
      rfl
    · rw [hlevel] at hle
      have := hle.resolve_left (List.cons_ne_nil p ps)
      rw [List.length_cons]
      exact .inr (by omega)

end Search

/-! ### Results in the order of the levels -/

/-- The order in which a traversal that visits `visits` reports `paths`. -/
structure LevelOrdered (g : Graph) (c : Config) (starts : List NodeId) (visits paths : List Path) :
    Prop where
  results : paths.Sublist visits
  sorted : paths.Pairwise fun p q => p.length ≤ q.length
  first : (visits.filter (·.length = 0)).Sublist (starts.map .single)
  /-- The paths of one length follow the order of the paths before their last hop, and with the same
  path before that hop the order in which its end is expanded. -/
  next : ∀ k, (visits.filter (·.length = k + 1)).Sublist
    ((visits.filter (·.length = k)).flatMap (c.successors g))

/-- **Breadth first**: a traversal that goes breadth first and that nothing stops comes to an end
exactly if some level is empty, and it answers with what the levels before have put out, shorter
paths first and within a length in the order of the level before. -/
theorem Traversal.breadthFirst_goes_by_levels {g : Graph} {starts : List NodeId} {c : Config}
    (hstarts : ∀ node ∈ starts, (g.node? node).isSome) (hsample : c.sample ≠ some 0)
    (hc : c.Exhaustive) (ho : c.order = .breadthFirst) :
    (∀ r, (∃ fuel, traverse fuel g starts c = some r) ↔
      ∃ n, (level g starts c n).2 = [] ∧ r = .ok (level g starts c n).1.output) ∧
    ∀ fuel out, traverse fuel g starts c = some (.ok out) →
      LevelOrdered g c starts (visits fuel g starts c) out.paths := by
  have hcheck := check_eq_ok hsample hstarts
  refine ⟨fun r => ?_, fun fuel out h => ?_⟩
  · rw [exists_traverse_iff hcheck hc]
    constructor
    · rintro ⟨k, hk, rfl⟩
      obtain ⟨j, hledger, hwaiting, hle⟩ := Search.exists_iterate_level g starts ho k
      have hj : ((Search.turn g c)^[j] (.init c starts)).waiting = [] := by
        rcases hle with hempty | hle
        · rw [hwaiting, hempty]
        · rw [Search.iterate_of_nil hle hk, hk]
      refine ⟨k, hwaiting ▸ hj, ?_⟩
      rw [← hledger, Search.iterate_eq_of_nil hk hj]
    · rintro ⟨n, hempty, rfl⟩
      obtain ⟨k, hledger, hwaiting, -⟩ := Search.exists_iterate_level g starts ho n
      exact ⟨k, hwaiting.trans hempty, by rw [hledger]⟩
  · obtain ⟨z, hout, hvisits, hz, hw⟩ := exists_of_traverse_exhaustive hcheck hc
      (fun x p rest hw hx => Search.Levelled.advance hx ho hw) Search.levelled_init h
    cases hout
    have hseen : z.seen = z.visited := by rw [Search.seen, hw, List.append_nil]
    have hresults : (z.found g c).Sublist z.visited := List.filter_sublist
    rw [hvisits]
    exact ⟨hresults, (hseen ▸ hz.sorted).sublist hresults, hseen ▸ hz.first,
      fun k => hseen ▸ hz.next k⟩

theorem Traversal.breadthFirst_goes_by_levels_twoWay :
    let c : Config := { uniqueness := .once .relationship .path }
    ∃ out, traverse 12 .twoWay [⟨0⟩] c = some (.ok out) ∧
      out.paths.map Path.length = [0, 1, 1, 2, 2] ∧
      (∃ n, (level .twoWay [⟨0⟩] c n).2 = [] ∧ (level .twoWay [⟨0⟩] c n).1.output = out) ∧
      LevelOrdered .twoWay c [⟨0⟩] (visits 12 .twoWay [⟨0⟩] c) out.paths := by
  intro c
  have hrun : traverse 12 .twoWay [⟨0⟩] c =
      some (.ok ⟨[⟨⟨0⟩, []⟩, ⟨⟨0⟩, [⟨⟨0⟩, ⟨1⟩⟩]⟩, ⟨⟨0⟩, [⟨⟨1⟩, ⟨1⟩⟩]⟩,
        ⟨⟨0⟩, [⟨⟨0⟩, ⟨1⟩⟩, ⟨⟨1⟩, ⟨0⟩⟩]⟩, ⟨⟨0⟩, [⟨⟨1⟩, ⟨1⟩⟩, ⟨⟨0⟩, ⟨0⟩⟩]⟩],
        ⟨5, 5, 0, 2, false⟩⟩) := by decide +kernel
  have hstarts : ∀ node ∈ [(⟨0⟩ : NodeId)], (Graph.twoWay.node? node).isSome := by decide +kernel
  have hsample : c.sample ≠ some 0 := by decide
  obtain ⟨hlevels, hordered⟩ := breadthFirst_goes_by_levels hstarts hsample ⟨rfl, rfl⟩ rfl
  obtain ⟨n, hempty, heq⟩ := (hlevels _).mp ⟨12, hrun⟩
  exact ⟨_, hrun, rfl, ⟨n, hempty, (Except.ok.inj heq).symm⟩, hordered 12 _ hrun⟩

end GraphWalk
