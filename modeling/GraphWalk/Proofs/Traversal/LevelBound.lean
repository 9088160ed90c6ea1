import GraphWalk.Proofs.Graph.History
import GraphWalk.Proofs.Traversal.Following
import GraphWalk.Proofs.Traversal.Queue

/-!
A bound on the length of paths cuts the longer ones off and does nothing else.

The traversal with the larger bound visits longer paths in between, and shows them to its tracker.
Under a policy that looks at the branch alone the tracker forgets them. Under any other policy they
do no harm if the traversal goes breadth first, for then no path within the smaller bound waits
behind a longer one.
-/

namespace GraphWalk

/-- The same traversal with another bound on the length of paths. -/
def Config.bounded (c : Config) (bound : Option ℕ) : Config := { c with maxLevel := bound }

/-- The second bound, if it is one, is not smaller than the first. -/
def WithinBound (L : ℕ) (m : Option ℕ) : Prop := ∀ M, m = some M → L ≤ M

namespace Config

variable {c : Config} {g : Graph} {L : ℕ} {m : Option ℕ} {p : Path}

lemma Exhaustive.bounded (h : c.Exhaustive) : (c.bounded m).Exhaustive := ⟨h.limit, h.cancellation⟩

lemma continues_bounded : (c.bounded m).continues g p =
    ((c.judge g p).expands && m.all (p.length < ·)) := rfl

lemma continues_bounded_some : (c.bounded (some L)).continues g p = true ↔
    (c.judge g p).expands = true ∧ p.length < L := by
  simp [continues_bounded]

lemma continues_bounded_of_lt (hm : WithinBound L m) (hp : p.length < L) :
    (c.bounded m).continues g p = (c.bounded (some L)).continues g p := by
  rw [continues_bounded, continues_bounded]
  rcases m with _ | M
  · simp [hp]
  · have hlt : p.length < M := lt_of_lt_of_le hp (hm M rfl)
    simp [hp, hlt]

/-- Of the continuations of a path, the smaller bound leaves those within it. -/
lemma filter_successors_bounded (hm : WithinBound L m) (g : Graph) (p : Path) :
    ((c.bounded m).successors g p).filter (·.length ≤ L) =
      (c.bounded (some L)).successors g p := by
  have hlen : ∀ q ∈ (c.bounded m).successors g p, q.length = p.length + 1 :=
    fun q hq => Search.length_of_mem_successors hq
  by_cases hp : p.length < L
  · have hall : ((c.bounded m).successors g p).filter (·.length ≤ L) =
        (c.bounded m).successors g p := by
      rw [List.filter_eq_self]
      intro q hq
      rw [hlen q hq]
      exact decide_eq_true hp
    rw [hall, successors, successors, continues_bounded_of_lt hm hp]
    rfl
  · have hnone : ((c.bounded m).successors g p).filter (·.length ≤ L) = [] := by
      rw [List.filter_eq_nil_iff]
      intro q hq
      rw [hlen q hq, decide_eq_true_iff]
      exact hp
    rw [hnone, successors, if_neg fun hcont => hp (continues_bounded_some.mp hcont).2]

end Config

/-- No path that is visited makes a difference to the turn of a shorter one: the tracker remembers
none, or paths wait in the order of their lengths. -/
def Config.Undisturbed (c : Config) : Prop := c.order = .breadthFirst ∨ c.uniqueness.IsLocal

namespace Search

variable {g : Graph} {c : Config} {starts : List NodeId} {L : ℕ} {m : Option ℕ} {x y : Search}
  {p : Path} {rest : List Path}

/-- The second search is where the first one is, but for the paths longer than the bound. Its
tracker is behind only when it has no more paths to show it. -/
structure CutsOff (c : Config) (L : ℕ) (x y : Search) : Prop where
  waiting : y.waiting = x.waiting.filter (·.length ≤ L)
  visited : y.visited = x.visited.filter (·.length ≤ L)
  tracker : y.waiting = [] ∨ y.tracker = x.tracker
  undisturbed : c.order = .breadthFirst ∧ x.Queued ∨ x.tracker.policy.IsLocal

namespace CutsOff

lemma init (hc : c.Undisturbed) (m : Option ℕ) : CutsOff c L
    (init (c.bounded m) starts) (init (c.bounded (some L)) starts) where
  waiting := by
    refine (List.filter_eq_self.mpr fun p hp => ?_).symm
    obtain ⟨node, -, rfl⟩ := List.mem_map.mp hp
    simp
  visited := rfl
  tracker := .inr rfl
  undisturbed := hc.imp_left fun ho => ⟨ho, queued_init⟩

lemma undisturbed_advance (h : CutsOff c L x y) (hw : x.waiting = p :: rest) :
    c.order = .breadthFirst ∧ (x.advance g (c.bounded m) p rest).Queued ∨
      (x.advance g (c.bounded m) p rest).tracker.policy.IsLocal := by
  rcases h.undisturbed with ⟨ho, hq⟩ | hlocal
  · exact .inl ⟨ho, hq.advance ho hw⟩
  · refine .inr ?_
    rw [tracker_advance, accept, Tracker.accept_of_isLocal hlocal]
    exact hlocal

lemma advance_both (hm : WithinBound L m) (h : CutsOff c L x y) (hw : x.waiting = p :: rest)
    (hp : p.length ≤ L) : ∃ rest', y.waiting = p :: rest' ∧ CutsOff c L
      (x.advance g (c.bounded m) p rest) (y.advance g (c.bounded (some L)) p rest') := by
  have hy : y.waiting = p :: rest.filter (·.length ≤ L) := by
    rw [h.waiting, hw, List.filter_cons_of_pos (by simpa using hp)]
  have htracker : y.tracker = x.tracker := h.tracker.resolve_left (by simp [hy])
  have haccept : y.accept p = x.accept p := by
    rw [accept, htracker]
    rfl
  refine ⟨_, hy, ?_, ?_, .inr ?_, h.undisturbed_advance hw⟩
  · cases ha : (x.accept p).1
    · rw [advance_of_refuse ha, advance_of_refuse (haccept ▸ ha)]
      rfl
    · rw [advance_of_accept ha, advance_of_accept (haccept ▸ ha)]
      change _ = (c.order.schedule rest _).filter _
      rw [Order.schedule_filter, Config.filter_successors_bounded hm]
      rfl
  · cases ha : (x.accept p).1
    · rw [visited_advance_of_refuse ha, visited_advance_of_refuse (haccept ▸ ha)]
      exact h.visited
    · rw [visited_advance_of_accept ha, visited_advance_of_accept (haccept ▸ ha),
        List.filter_append, ← h.visited, List.filter_cons_of_pos (by simpa using hp),
        List.filter_nil]
  · rw [tracker_advance, tracker_advance, haccept]

lemma advance_left (hm : WithinBound L m) (h : CutsOff c L x y) (hw : x.waiting = p :: rest)
    (hp : ¬ p.length ≤ L) : CutsOff c L (x.advance g (c.bounded m) p rest) y := by
  have hy : y.waiting = rest.filter (·.length ≤ L) := by
    rw [h.waiting, hw, List.filter_cons_of_neg (by simpa using hp)]
  have hsucc : (c.bounded (some L)).successors g p = [] := by
    rw [Config.successors, if_neg fun hcont => ?_]
    exact hp (Nat.le_of_lt (Config.continues_bounded_some.mp hcont).2)
  refine ⟨?_, ?_, ?_, h.undisturbed_advance hw⟩
  · cases ha : (x.accept p).1
    · rw [advance_of_refuse ha]
      exact hy
    · rw [advance_of_accept ha]
      change y.waiting = (c.order.schedule rest _).filter _
      rw [Order.schedule_filter, Config.filter_successors_bounded hm, hsucc, Order.schedule_nil, hy]
  · rcases (visited_advance : (x.advance g (c.bounded m) p rest).visited = _ ∨ _) with hv | hv
    · rw [hv]
      exact h.visited
    · rw [hv, List.filter_append, List.filter_cons_of_neg (by simpa using hp), List.filter_nil,
        List.append_nil]
      exact h.visited
  · rw [tracker_advance]
    rcases h.undisturbed with ⟨-, hq⟩ | hlocal
    · -- all that waits behind a path that is too long is too long as well
      left
      rw [hy, List.filter_eq_nil_iff]
      intro q hq'
      have hle := (hq.length_le hw).2 q hq'
      simp only [decide_eq_true_eq]
      omega
    · rw [accept, Tracker.accept_of_isLocal hlocal]
      exact h.tracker

lemma follows (hm : WithinBound L m) :
    Follows g (c.bounded m) (c.bounded (some L)) (CutsOff c L) := by
  intro x y p rest h hw
  by_cases hp : p.length ≤ L
  · exact .inr (h.advance_both hm hw hp)
  · exact .inl (h.advance_left hm hw hp)

lemma found_eq (h : CutsOff c L x y) : y.found g (c.bounded (some L)) =
    (x.found g (c.bounded m)).filter (·.length ≤ L) := by
  rw [found, found, h.visited, List.filter_comm]
  rfl

end CutsOff

end Search

open Traversal

/-- **A bound only cuts**: a traversal that nothing stops, and that goes breadth first or has a
policy that looks at the branch alone, reports under a bound on the length of paths what it reports
under a larger bound or none, in the same order, but for the paths longer than the bound. -/
theorem Traversal.bound_cuts_longer_paths {fuel fuel' L : ℕ} {m : Option ℕ} {g : Graph}
    {starts : List NodeId} {c : Config} {out out' : Output} (hc : c.Exhaustive)
    (hu : c.Undisturbed) (hm : WithinBound L m)
    (h : traverse fuel g starts (c.bounded (some L)) = some (.ok out))
    (h' : traverse fuel' g starts (c.bounded m) = some (.ok out')) :
    out.paths = out'.paths.filter (·.length ≤ L) := by
  have hend : ∀ x y, Search.CutsOff c L x y → x.waiting = [] → y.waiting = [] := by
    intro x y hxy hx
    rw [hxy.waiting, hx, List.filter_nil]
  obtain ⟨x, y, hxy, hx, hy⟩ := exists_related_of_traverse hc.bounded hc.bounded
    (Search.CutsOff.follows hm) (Search.CutsOff.init hu m) hend h' h
  rw [hy, hxy.found_eq, hx]

/-- With every node once a level, out by one hop instead of out and back. -/
theorem Traversal.bound_cuts_longer_paths_twoWay :
    let c : Config := { uniqueness := .once .node .level }
    ∃ out out', traverse 12 .twoWay [⟨0⟩] (c.bounded (some 1)) = some (.ok out) ∧
      traverse 12 .twoWay [⟨0⟩] (c.bounded (some 3)) = some (.ok out') ∧ out'.paths.length = 4 ∧
      out.paths = out'.paths.filter (·.length ≤ 1) := by
  intro c
  have hrun : traverse 12 .twoWay [⟨0⟩] (c.bounded (some 1)) =
      some (.ok ⟨[⟨⟨0⟩, []⟩, ⟨⟨0⟩, [⟨⟨0⟩, ⟨1⟩⟩]⟩], ⟨2, 2, 0, 1, false⟩⟩) := by decide +kernel
  have hrun' : traverse 12 .twoWay [⟨0⟩] (c.bounded (some 3)) =
      some (.ok ⟨[⟨⟨0⟩, []⟩, ⟨⟨0⟩, [⟨⟨0⟩, ⟨1⟩⟩]⟩, ⟨⟨0⟩, [⟨⟨0⟩, ⟨1⟩⟩, ⟨⟨1⟩, ⟨0⟩⟩]⟩,
        ⟨⟨0⟩, [⟨⟨0⟩, ⟨1⟩⟩, ⟨⟨1⟩, ⟨0⟩⟩, ⟨⟨0⟩, ⟨1⟩⟩]⟩], ⟨4, 4, 0, 3, false⟩⟩) := by
    decide +kernel
  have hm : WithinBound 1 (some 3) := by
    rintro M ⟨⟩
    decide
  exact ⟨_, _, hrun, hrun', rfl, bound_cuts_longer_paths ⟨rfl, rfl⟩ (.inl rfl) hm hrun hrun'⟩

end GraphWalk
