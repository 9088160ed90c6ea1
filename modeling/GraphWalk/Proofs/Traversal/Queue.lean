import GraphWalk.Proofs.Traversal.Search

/-!
The queue of a search that goes breadth first.

At every moment it holds paths of two lengths at most, the shorter ones first. So what is visited is
visited level by level, and each level in the order of the level before it.
-/

namespace GraphWalk

namespace Search

variable {g : Graph} {c : Config} {starts : List NodeId} {x : Search} {p q : Path}
  {rest : List Path}

lemma length_of_mem_successors (h : q ∈ c.successors g p) : q.length = p.length + 1 := by
  obtain ⟨-, hop, -, rfl⟩ := Config.mem_successors.mp h
  exact Path.length_push p hop

/-! ### What a turn does to the queue -/

lemma waiting_advance_of_breadthFirst (ho : c.order = .breadthFirst)
    (ha : (x.accept p).1 = true) :
    (x.advance g c p rest).waiting = rest ++ c.successors g p := by
  rw [advance_of_accept ha, expand, ho]
  rfl

lemma seen_advance_of_breadthFirst (ho : c.order = .breadthFirst) (hw : x.waiting = p :: rest)
    (ha : (x.accept p).1 = true) : (x.advance g c p rest).seen = x.seen ++ c.successors g p := by
  rw [seen, seen, visited_advance_of_accept ha, waiting_advance_of_breadthFirst ho ha, hw]
  simp

lemma seen_sublist_of_refuse (hw : x.waiting = p :: rest) (ha : (x.accept p).1 = false) :
    (x.advance g c p rest).seen.Sublist x.seen := by
  rw [seen, seen, visited_advance_of_refuse ha, advance_of_refuse ha, hw]
  exact (List.sublist_cons_self p rest).append_left x.visited

/-! ### Lengths -/

/-- What holds of the lengths of paths before every turn of a search that goes breadth first. -/
structure Queued (x : Search) : Prop where
  sorted : x.seen.Pairwise fun p q => p.length ≤ q.length
  span : x.waiting.Pairwise fun p q => q.length ≤ p.length + 1

lemma queued_init : (init c starts).Queued where
  sorted := List.pairwise_map.mpr (List.pairwise_of_forall fun _ _ => le_rfl)
  span := List.pairwise_map.mpr (List.pairwise_of_forall fun _ _ => Nat.zero_le 1)

namespace Queued

lemma length_le (h : x.Queued) (hw : x.waiting = p :: rest) :
    (∀ q ∈ x.visited, q.length ≤ p.length) ∧ (∀ q ∈ rest, p.length ≤ q.length) := by
  have hsorted := h.sorted
  rw [seen, hw, List.pairwise_append, List.pairwise_cons] at hsorted
  exact ⟨fun q hq => hsorted.2.2 q hq p List.mem_cons_self, hsorted.2.1.1⟩

lemma refuse (h : x.Queued) (hw : x.waiting = p :: rest) (ha : (x.accept p).1 = false) :
    (x.advance g c p rest).Queued where
  sorted := h.sorted.sublist (seen_sublist_of_refuse hw ha)
  span := by
    have hspan := h.span
    rw [hw] at hspan
    rw [advance_of_refuse ha]
    exact hspan.of_cons

lemma enter (h : x.Queued) (ho : c.order = .breadthFirst) (hw : x.waiting = p :: rest)
    (ha : (x.accept p).1 = true) : (x.advance g c p rest).Queued := by
  have hspan := h.span
  rw [hw, List.pairwise_cons] at hspan
  obtain ⟨hvisited, hrest⟩ := h.length_le hw
  have hlen := fun q => length_of_mem_successors (g := g) (c := c) (p := p) (q := q)
  have hsucc : (c.successors g p).Pairwise fun q r => q.length = r.length :=
    List.pairwise_of_forall_mem_list fun q hq r hr => by rw [hlen q hq, hlen r hr]
  refine ⟨?_, ?_⟩
  · rw [seen_advance_of_breadthFirst ho hw ha, List.pairwise_append]
    refine ⟨h.sorted, hsucc.imp Nat.le_of_eq, fun q hq r hr => ?_⟩
    rw [hlen r hr]
    rw [seen, hw, List.mem_append, List.mem_cons] at hq
    rcases hq with hq | rfl | hq
    · exact le_trans (hvisited q hq) (Nat.le_succ _)
    · exact Nat.le_succ _
    · exact hspan.1 q hq
  · rw [waiting_advance_of_breadthFirst ho ha, List.pairwise_append]
    refine ⟨hspan.2, hsucc.imp fun heq => heq ▸ Nat.le_succ _, fun q hq r hr => ?_⟩
    rw [hlen r hr]
    exact Nat.succ_le_succ (hrest q hq)

lemma advance (h : x.Queued) (ho : c.order = .breadthFirst) (hw : x.waiting = p :: rest) :
    (x.advance g c p rest).Queued := by
  cases ha : (x.accept p).1
  · exact h.refuse hw ha
  · exact h.enter ho hw ha

end Queued

/-! ### Levels -/

/-- The paths seen of each length follow in the order in which the paths visited that are one hop
shorter are continued. -/
structure Levelled (g : Graph) (c : Config) (starts : List NodeId) (x : Search) : Prop
    extends x.Queued where
  first : (x.seen.filter (·.length = 0)).Sublist (starts.map .single)
  next : ∀ k, (x.seen.filter (·.length = k + 1)).Sublist
    ((x.visited.filter (·.length = k)).flatMap (c.successors g))

lemma levelled_init : (init c starts).Levelled g c starts where
  toQueued := queued_init
  first := List.filter_sublist
  next := fun k => by
    have hnone : (init c starts).seen.filter (·.length = k + 1) = [] := by
      rw [List.filter_eq_nil_iff]
      intro p hp
      obtain ⟨node, -, rfl⟩ := List.mem_map.mp hp
      simp
    rw [hnone]
    exact List.nil_sublist _

lemma filter_successors_sublist (p : Path) (k : ℕ) :
    ((c.successors g p).filter (·.length = k + 1)).Sublist
      (([p].filter (·.length = k)).flatMap (c.successors g)) := by
  by_cases hk : p.length = k
  · simp [hk]
  · have hnone : (c.successors g p).filter (·.length = k + 1) = [] := by
      rw [List.filter_eq_nil_iff]
      intro q hq
      simpa [length_of_mem_successors hq] using hk
    rw [hnone]
    exact List.nil_sublist _

lemma Levelled.advance (h : x.Levelled g c starts) (ho : c.order = .breadthFirst)
    (hw : x.waiting = p :: rest) : (x.advance g c p rest).Levelled g c starts := by
  cases ha : (x.accept p).1
  · have hseen := seen_sublist_of_refuse (g := g) (c := c) hw ha
    refine ⟨h.toQueued.advance ho hw, (hseen.filter _).trans h.first, fun k => ?_⟩
    rw [visited_advance_of_refuse ha]
    exact (hseen.filter _).trans (h.next k)
  · refine ⟨h.toQueued.advance ho hw, ?_, fun k => ?_⟩
    · have hnone : (c.successors g p).filter (·.length = 0) = [] := by
        rw [List.filter_eq_nil_iff]
        intro q hq
        simp [length_of_mem_successors hq]
      rw [seen_advance_of_breadthFirst ho hw ha, List.filter_append, hnone, List.append_nil]
      exact h.first
    · rw [seen_advance_of_breadthFirst ho hw ha, visited_advance_of_accept ha, List.filter_append,
        List.filter_append, List.flatMap_append]
      exact (h.next k).append (filter_successors_sublist p k)

end Search

end GraphWalk
