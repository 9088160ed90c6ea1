import GraphWalk.Proofs.Graph.History
import GraphWalk.Proofs.Traversal.Unfolding

/-!
Path enumeration is exact.

Under a policy that looks at nothing but the branch itself, whether a path is visited does not
depend on what was visited before. So a traversal that nothing stops finds every walk that the
policy allows, and finds it once.
-/

namespace GraphWalk

namespace Search

variable {g : Graph} {c : Config} {starts : List NodeId} {x : Search} {p : Path} {rest : List Path}

/-- What holds before every turn of a search under a local policy. -/
structure Enumerates (g : Graph) (c : Config) (starts : List NodeId) (x : Search) : Prop where
  tracker : x.tracker = .new c.uniqueness c.recentWindow
  nodup : x.seen.Nodup
  roots : ∀ node ∈ starts, .single node ∈ x.seen
  walk : ∀ p ∈ x.seen, c.Walk g starts p
  parent : ∀ p hop, p.push hop ∈ x.seen → p ∈ x.visited
  allowed : ∀ p ∈ x.visited, c.Allows p
  complete : ∀ p ∈ x.visited, ∀ q ∈ c.successors g p, c.Allows q → q ∈ x.seen

namespace Enumerates

lemma accept_iff (h : x.Enumerates g c starts) (hu : c.uniqueness.IsLocal) (hp : p ∈ x.seen) :
    (x.accept p).1 = true ↔ c.Allows p := by
  rw [accept, h.tracker]
  rcases p.eq_single_or_push with ⟨node, rfl⟩ | ⟨q, hop, rfl⟩
  · exact iff_of_true (Tracker.accept_start hu node _) (Path.eachHop_single _ node)
  · have hq := h.allowed q (h.parent q hop hp)
    rw [Path.lineage_push, List.tail_cons, Path.step_push, Tracker.accept_hop hu,
      Config.allows_push, and_iff_right hq]
    rfl

lemma tracker_accept (h : x.Enumerates g c starts) (hu : c.uniqueness.IsLocal) :
    (x.accept p).2 = .new c.uniqueness c.recentWindow := by
  rw [accept, h.tracker]
  exact Tracker.accept_of_isLocal hu _ _ _

lemma refuse (h : x.Enumerates g c starts) (hu : c.uniqueness.IsLocal)
    (hw : x.waiting = p :: rest) (ha : (x.accept p).1 = false) :
    (x.advance g c p rest).Enumerates g c starts := by
  have hp : p ∈ x.seen := mem_seen_of_waiting hw
  have hnot : ¬ c.Allows p := by rw [← h.accept_iff hu hp, ha]; exact Bool.false_ne_true
  have hperm := seen_perm_of_refuse (g := g) (c := c) hw ha
  have hvisited : (x.advance g c p rest).visited = x.visited := visited_advance_of_refuse ha
  refine ⟨?_, ?_, fun node hnode => ?_, walk_advance h.walk hw, Grown.advance h.parent hw, ?_, ?_⟩
  · rw [tracker_advance, h.tracker_accept hu]
  · exact (List.nodup_cons.mp (hperm.nodup_iff.mp h.nodup)).2
  · refine mem_seen_of_refuse hw ha (h.roots node hnode) ?_
    rintro rfl
    exact hnot (Path.eachHop_single _ node)
  · rw [hvisited]
    exact h.allowed
  · rw [hvisited]
    intro q hq r hr hallows
    refine mem_seen_of_refuse hw ha (h.complete q hq r hr hallows) ?_
    rintro rfl
    exact hnot hallows

lemma enter (h : x.Enumerates g c starts) (hu : c.uniqueness.IsLocal)
    (hw : x.waiting = p :: rest) (ha : (x.accept p).1 = true) :
    (x.advance g c p rest).Enumerates g c starts := by
  have hp : p ∈ x.seen := mem_seen_of_waiting hw
  have hperm := seen_perm_of_accept (g := g) (c := c) hw ha
  have hmem : ∀ q, q ∈ (x.advance g c p rest).seen ↔ q ∈ x.seen ∨ q ∈ c.successors g p :=
    fun q => hperm.mem_iff.trans List.mem_append
  have hvisited : ∀ q, q ∈ (x.advance g c p rest).visited ↔ q ∈ x.visited ∨ q = p := by
    intro q
    rw [visited_advance_of_accept ha, List.mem_append, List.mem_singleton]
  have hfresh : p ∉ x.visited := by
    have hnodup := h.nodup
    rw [seen, hw] at hnodup
    exact fun hv => (List.nodup_append.mp hnodup).2.2 p hv p List.mem_cons_self rfl
  -- a continuation of `p` that is there already would have been scheduled by `p`
  have hdisjoint : ∀ q ∈ x.seen, q ∉ c.successors g p := by
    intro q hq hsucc
    obtain ⟨-, hop, -, rfl⟩ := Config.mem_successors.mp hsucc
    exact hfresh (h.parent p hop hq)
  refine ⟨?_, ?_, fun node hnode => (hmem _).mpr (.inl (h.roots node hnode)),
    walk_advance h.walk hw, Grown.advance h.parent hw, ?_, ?_⟩
  · rw [tracker_advance, h.tracker_accept hu]
  · refine hperm.nodup_iff.mpr (List.nodup_append.mpr ⟨h.nodup, Config.nodup_successors p, ?_⟩)
    rintro q hq _ hsucc rfl
    exact hdisjoint q hq hsucc
  · intro q hq
    rcases (hvisited q).mp hq with hq | rfl
    · exact h.allowed q hq
    · exact (h.accept_iff hu hp).mp ha
  · intro q hq r hr hallows
    rw [hmem]
    rcases (hvisited q).mp hq with hq | rfl
    · exact .inl (h.complete q hq r hr hallows)
    · exact .inr hr

lemma advance (h : x.Enumerates g c starts) (hu : c.uniqueness.IsLocal)
    (hw : x.waiting = p :: rest) : (x.advance g c p rest).Enumerates g c starts := by
  cases ha : (x.accept p).1
  · exact h.refuse hu hw ha
  · exact h.enter hu hw ha

end Enumerates

end Search

open Traversal

end GraphWalk
