import GraphWalk.Proofs.Traversal.Turns
import GraphWalk.Proofs.Traversal.Unfolding

/-!
Turns apart from the list of the paths that wait.

All that a turn reads and changes besides that list is the tracker and the output so far, the
ledger. So a search can be compared with a procedure that keeps no list of what waits but hands a
ledger on from path to path.
-/

namespace GraphWalk

open Traversal

/-- What is handed on from path to path: what the tracker has taken, and what was put out. -/
structure Ledger where
  tracker : Tracker
  output : Output

namespace Ledger

def new (c : Config) : Ledger := ⟨.new c.uniqueness c.recentWindow, ⟨[], {}⟩⟩

/-- The turn of a path, which is visited if the tracker accepts it; with the paths to which it is
continued then. -/
def turn (g : Graph) (c : Config) (l : Ledger) (p : Path) : Ledger × List Path :=
  let a := l.tracker.accept p.lineage.tail p.step p.length
  if a.1 then (⟨a.2, l.output.visit p (c.judge g p)⟩, c.successors g p) else (⟨a.2, l.output⟩, [])

end Ledger

namespace Search

variable {g : Graph} {c : Config} {starts : List NodeId} {x : Search} {p : Path} {rest : List Path}

def ledger (g : Graph) (c : Config) (x : Search) : Ledger := ⟨x.tracker, x.output g c⟩

lemma ledger_init : (init c starts).ledger g c = .new c := rfl

lemma turn_eq (hw : x.waiting = p :: rest) :
    (x.turn g c).ledger g c = ((x.ledger g c).turn g c p).1 ∧
      (x.turn g c).waiting = c.order.schedule rest ((x.ledger g c).turn g c p).2 := by
  have hacc : (x.ledger g c).tracker.accept p.lineage.tail p.step p.length = x.accept p := rfl
  rw [turn_of_cons hw]
  simp only [Ledger.turn, hacc]
  cases ha : (x.accept p).1
  · rw [advance_of_refuse ha, if_neg Bool.false_ne_true]
    exact ⟨rfl, (Order.schedule_nil _ _).symm⟩
  · rw [advance_of_accept ha, if_pos rfl]
    refine ⟨congrArg (Ledger.mk _) ?_, rfl⟩
    exact output_enter { x with waiting := rest } p

end Search

/-- A traversal that nothing stops answers with what the turns of the search have put out when
nothing waits any more. -/
lemma Traversal.exists_traverse_iff {g : Graph} {starts : List NodeId} {c : Config}
    (hcheck : check g starts c = .ok ()) (hc : c.Exhaustive) {r : Except WalkError Output} :
    (∃ fuel, traverse fuel g starts c = some r) ↔
      ∃ k, ((Search.turn g c)^[k] (.init c starts)).waiting = [] ∧
        r = .ok (((Search.turn g c)^[k] (.init c starts)).ledger g c).output := by
  constructor
  · rintro ⟨fuel, h⟩
    rw [traverse_eq_search hcheck, Option.map_eq_some_iff] at h
    obtain ⟨r', hrun, rfl⟩ := h
    obtain ⟨k, rfl, hw⟩ := Search.exists_iterate_of_run hc hrun
    exact ⟨k, hw, rfl⟩
  · rintro ⟨k, hw, rfl⟩
    obtain ⟨fuel, hrun⟩ := Search.exists_run_of_iterate hc hw
    exact ⟨fuel, by rw [traverse_eq_search hcheck, hrun]; rfl⟩

end GraphWalk
