import GraphWalk.Proofs.Traversal.Expansion
import GraphWalk.Proofs.Traversal.Unfolding

/-!
Searches that visit every node once at most: the first path that arrives at a node claims it.
-/

namespace GraphWalk

namespace Search

variable {g : Graph} {c : Config} {starts : List NodeId} {x : Search} {p : Path} {rest : List Path}

/-- The marks of the tracker are the ends of the paths visited, which differ from each other. -/
structure Claims (x : Search) : Prop where
  policy : x.tracker.policy = .once .node .global
  marks : ∀ node : NodeId, ⟨0, node.val⟩ ∈ x.tracker.marks ↔ node ∈ x.visited.map Path.last
  once : (x.visited.map Path.last).Nodup

lemma claims_init (hu : c.uniqueness = .once .node .global) : (init c starts).Claims where
  policy := hu
  marks := fun node => by simp [init, Tracker.new]
  once := List.nodup_nil

namespace Claims

lemma accept_eq (h : x.Claims) (p : Path) : x.accept p = x.tracker.mark ⟨0, p.last.val⟩ := by
  rw [accept, Tracker.accept, h.policy]
  rfl

lemma accept_iff (h : x.Claims) (p : Path) :
    (x.accept p).1 = true ↔ p.last ∉ x.visited.map Path.last := by
  rw [h.accept_eq, Tracker.fst_mark_eq_true_iff, h.marks]

lemma accept_eq_false_iff (h : x.Claims) (p : Path) :
    (x.accept p).1 = false ↔ p.last ∈ x.visited.map Path.last := by
  rw [← Bool.not_eq_true, h.accept_iff, not_not]

lemma mem_marks_accept (h : x.Claims) (p : Path) (node : NodeId) :
    ⟨0, node.val⟩ ∈ (x.accept p).2.marks ↔ p.last = node ∨ node ∈ x.visited.map Path.last := by
  rw [h.accept_eq, Tracker.mem_marks_mark, h.marks]
  simp

lemma advance (h : x.Claims) (p : Path) (rest : List Path) : (x.advance g c p rest).Claims := by
  have hpolicy : (x.accept p).2.policy = .once .node .global := by
    rw [h.accept_eq, Tracker.policy_mark, h.policy]
  cases ha : (x.accept p).1
  · have hlast := (h.accept_eq_false_iff p).mp ha
    refine ⟨by rwa [tracker_advance], fun node => ?_, ?_⟩
    · rw [tracker_advance, h.mem_marks_accept, visited_advance_of_refuse ha]
      exact ⟨fun hm => hm.elim (fun he => he ▸ hlast) id, .inr⟩
    · rw [visited_advance_of_refuse ha]
      exact h.once
  · have hlast := (h.accept_iff p).mp ha
    refine ⟨by rwa [tracker_advance], fun node => ?_, ?_⟩
    · rw [tracker_advance, h.mem_marks_accept, visited_advance_of_accept ha, List.map_append,
        List.mem_append, List.map_singleton, List.mem_singleton, or_comm, eq_comm]
    · rw [visited_advance_of_accept ha, List.map_append, List.nodup_append]
      refine ⟨h.once, List.nodup_singleton _, ?_⟩
      rintro node hnode _ hp rfl
      rw [List.map_singleton, List.mem_singleton] at hp
      exact hlast (hp ▸ hnode)

end Claims

/-- The node at the end of `q` is claimed, or `q` waits to claim it. -/
def Secures (x : Search) (q : Path) : Prop := q ∈ x.waiting ∨ q.last ∈ x.visited.map Path.last

/-- A turn turns no path down whose end is not claimed. -/
lemma Claims.secures_advance (h : x.Claims) (hw : x.waiting = p :: rest) {q : Path}
    (hq : x.Secures q) : (x.advance g c p rest).Secures q := by
  rw [Secures, hw, List.mem_cons] at hq
  unfold Secures
  cases ha : (x.accept p).1
  · rw [visited_advance_of_refuse ha, advance_of_refuse ha]
    rcases hq with (rfl | hwait) | hclaimed
    · exact .inr ((h.accept_eq_false_iff q).mp ha)
    · exact .inl hwait
    · exact .inr hclaimed
  · rw [visited_advance_of_accept ha, advance_of_accept ha, List.map_append]
    rcases hq with (rfl | hwait) | hclaimed
    · exact .inr (List.mem_append_right _ List.mem_cons_self)
    · exact .inl (Order.mem_schedule.mpr (.inl hwait))
    · exact .inr (List.mem_append_left _ hclaimed)

end Search

end GraphWalk
