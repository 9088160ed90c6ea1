import GraphWalk.Proofs.Traversal.Evaluation
import GraphWalk.Proofs.Traversal.Expansion
import GraphWalk.Proofs.Traversal.Unfolding

/-!
What the filters guarantee about every result of every traversal, whatever stops it and whatever
may not repeat.
-/

namespace GraphWalk

open Traversal

variable {g : Graph} {c : Config} {starts : List NodeId} {p : Path}

/-- What the filters demand of a path that is reported. -/
structure Lawful (g : Graph) (c : Config) (starts : List NodeId) (p : Path) : Prop where
  start : p.start ∈ starts
  hop : ∀ (i : ℕ) (hop : Hop) (node : NodeId), p.hops[i]? = some hop → p.nodes[i]? = some node →
    ∃ r, g.relationship? hop.rel = some r ∧ c.relationshipFilter.admits r node = true ∧
      (r.source = node ∧ r.target = hop.node ∨ r.target = node ∧ r.source = hop.node)
  minLevel : c.minLevel ≤ p.length
  maxLevel : ∀ bound, c.maxLevel = some bound → p.length ≤ bound
  denied : ∀ (i : ℕ) (node : NodeId), p.nodes[i]? = some node → 1 ≤ i ∨ c.filterStartNode = true →
    c.denies node (g.labels node) = false
  interior : ∀ (i : ℕ) (node : NodeId), p.nodes[i]? = some node → i < p.length → c.minLevel ≤ i →
    1 ≤ i ∨ c.filterStartNode = true → c.isTerminator node (g.labels node) = false ∧
      (c.isEndNode node (g.labels node) = true ∨ c.allows node (g.labels node) = true)
  last : 1 ≤ p.length ∨ c.filterStartNode = true →
    c.isTerminator p.last (g.labels p.last) = true ∨ c.isEndNode p.last (g.labels p.last) = true ∨
      c.allows p.last (g.labels p.last) = true ∧ (c.endNodeMode = false ∨ c.hasAllowlist = true)
  /-- A start by itself that is not filtered is a result unless it is too short or no end. -/
  lone : p.length = 0 → c.filterStartNode = false → c.minLevel = 0 ∧ c.endNodeMode = false

lemma Config.bypasses_iff {depth : ℕ} :
    ¬ c.Bypasses depth ↔ 1 ≤ depth ∨ c.filterStartNode = true := by
  simp [Bypasses, Nat.one_le_iff_ne_zero, imp_iff_not_or]

namespace Config.Walk

lemma continues_upTo (h : c.Walk g starts p) {i : ℕ} (hi : i < p.length) :
    c.continues g (p.upTo i) = true :=
  (h.hops i p.hops[i] (List.getElem?_eq_getElem hi)).1

lemma expands (h : c.Walk g starts p) {i : ℕ} {node : NodeId} (hnode : p.nodes[i]? = some node)
    (hi : i < p.length) : (c.evaluate node (g.labels node) i).expands = true := by
  obtain ⟨hle, rfl⟩ := Path.getElem?_nodes.mp hnode
  have hcont := h.continues_upTo hi
  rw [continues, Bool.and_eq_true, judge, Path.length_upTo p hle] at hcont
  exact hcont.1

lemma length_le (h : c.Walk g starts p) {bound : ℕ} (hbound : c.maxLevel = some bound) :
    p.length ≤ bound := by
  rcases Nat.eq_zero_or_pos p.length with hzero | hpos
  · rw [hzero]
    exact Nat.zero_le bound
  · have hcont := h.continues_upTo (i := p.length - 1) (by omega)
    rw [continues, Bool.and_eq_true, Path.length_upTo p (by omega), expandsAt, hbound,
      Option.all_some, decide_eq_true_eq] at hcont
    omega

lemma exists_relationship (h : c.Walk g starts p) (hg : g.Reachable) {i : ℕ} {hop : Hop}
    {node : NodeId} (hhop : p.hops[i]? = some hop) (hnode : p.nodes[i]? = some node) :
    ∃ r, g.relationship? hop.rel = some r ∧ c.relationshipFilter.admits r node = true ∧
      (r.source = node ∧ r.target = hop.node ∨ r.target = node ∧ r.source = hop.node) := by
  obtain ⟨-, rfl⟩ := Path.getElem?_nodes.mp hnode
  obtain ⟨q, hq⟩ := hg.exists_tracks
  obtain ⟨r, hr, rfl⟩ := exists_offered_of_mem_nextHops (h.hops i hop hhop).2
  obtain ⟨hends, hadmits⟩ :=
    RelationshipFilter.admits_of_mem_expand hq (mem_expand_of_mem_offered hr)
  obtain ⟨id, hid⟩ := exists_relationship?_of_mem_offered hr
  have hstored : g.relationship? r.id = some r :=
    hq.relationship?_eq_some_iff.mpr ⟨(hq.relationship?_eq_some_iff.mp hid).1, rfl⟩
  refine ⟨r, hstored, hadmits, ?_⟩
  unfold Relationship.otherNode
  rcases hends with hs | ht
  · exact .inl ⟨hs, by rw [if_pos hs]⟩
  · by_cases hs : r.source = (p.upTo i).last
    · exact .inl ⟨hs, by rw [if_pos hs]⟩
    · exact .inr ⟨ht, by rw [if_neg hs]⟩

theorem lawful (h : c.Walk g starts p) (hg : g.Reachable)
    (hinc : (c.judge g p).includes = true) : Lawful g c starts p := by
  rw [judge, includes_evaluate_iff] at hinc
  have hend : 1 ≤ p.length ∨ c.filterStartNode = true →
      c.denies p.last (g.labels p.last) = false ∧ c.minLevel ≤ p.length ∧
        (c.isTerminator p.last (g.labels p.last) = true ∨
          c.isEndNode p.last (g.labels p.last) = true ∨
          c.allows p.last (g.labels p.last) = true ∧
            (c.endNodeMode = true → c.hasAllowlist = true)) := by
    intro hasked
    rwa [if_neg (bypasses_iff.mpr hasked)] at hinc
  have hlone : p.length = 0 → c.filterStartNode = false →
      c.minLevel = 0 ∧ c.endNodeMode = false := by
    intro hzero hfilter
    rwa [if_pos ⟨hzero, hfilter⟩] at hinc
  refine ⟨h.start, fun i hop node => h.exists_relationship hg, ?_, fun bound => h.length_le, ?_, ?_,
    ?_, hlone⟩
  · by_cases hasked : 1 ≤ p.length ∨ c.filterStartNode = true
    · exact (hend hasked).2.1
    · rw [not_or, Bool.not_eq_true] at hasked
      rw [(hlone (by omega) hasked.2).1]
      exact Nat.zero_le _
  · intro i node hnode hasked
    obtain ⟨hle, hlast⟩ := Path.getElem?_nodes.mp hnode
    rcases Nat.lt_or_eq_of_le hle with hlt | rfl
    · have hexp := expands_evaluate_iff.mp (h.expands hnode hlt)
      exact (hexp.resolve_left (bypasses_iff.mpr hasked)).1
    · rw [Path.upTo_length] at hlast
      exact hlast ▸ (hend hasked).1
  · intro i node hnode hlt hmin hasked
    have hexp := expands_evaluate_iff.mp (h.expands hnode hlt)
    exact (hexp.resolve_left (bypasses_iff.mpr hasked)).2.resolve_left (not_lt.mpr hmin)
  · intro hasked
    obtain ⟨-, -, hrules⟩ := hend hasked
    exact hrules.imp_right fun hr => hr.imp_right fun ha =>
      ⟨ha.1, by cases hm : c.endNodeMode <;> simp_all⟩

end Config.Walk

/-- **Filter law**: whatever a traversal reports keeps all that the filters demand. -/
theorem Traversal.results_are_lawful {fuel : ℕ} {out : Output} (hg : g.Reachable)
    (h : traverse fuel g starts c = some (.ok out)) : ∀ p ∈ out.paths, Lawful g c starts p := by
  obtain ⟨z, hrun, rfl, -⟩ := exists_search_of_traverse h
  intro p hp
  obtain ⟨hvisited, hinc⟩ := List.mem_filter.mp hp
  exact (Search.walk_of_run hrun p hvisited).lawful hg hinc

/-- From one of two nodes, the other one is as far as a traversal gets that asks for a hop. -/
theorem Traversal.results_are_lawful_twoWay :
    let c : Config := { minLevel := 1, filterStartNode := true }
    ∃ out, traverse 12 .twoWay [⟨0⟩] c = some (.ok out) ∧ out.paths.length = 1 ∧
      ∀ p ∈ out.paths, Lawful .twoWay c [⟨0⟩] p := by
  intro c
  have hrun : traverse 12 .twoWay [⟨0⟩] c =
      some (.ok ⟨[⟨⟨0⟩, [⟨⟨0⟩, ⟨1⟩⟩]⟩], ⟨2, 1, 0, 1, false⟩⟩) := by decide +kernel
  exact ⟨_, hrun, rfl, results_are_lawful (Graph.reachable_after_empty _) hrun⟩

end GraphWalk
