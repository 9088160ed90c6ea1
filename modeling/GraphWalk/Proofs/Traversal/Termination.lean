import GraphWalk.Proofs.Traversal.Expansion
import GraphWalk.Proofs.Traversal.Repetition
import Mathlib.Logic.Hydra

/-!
When a traversal comes to an end.

A turn takes a path from those that wait and puts finitely many longer ones in its place. So a
search is over some time if the paths that are continued are no longer than some bound. There is
such a bound if the settings name one, and also if the policy keeps equal items of a path so far
apart that the graph runs out of items first.
-/

namespace GraphWalk

/-! ### Lists without near repetitions -/

lemma Spaced.mono {window window' : ℕ} {as : List ℕ} (h : Spaced window as)
    (hle : window' ≤ window) : Spaced window' as := by
  intro i j n hij hi hj
  have := h i j n hij hi hj
  omega

lemma spaced_of_nodup {as : List ℕ} (h : as.Nodup) (window : ℕ) : Spaced window as := by
  intro i j n hij hi hj
  have hlt := (List.getElem?_eq_some_iff.mp hj).1
  exact absurd (hi.trans hj.symm) (List.nodup_iff_getElem?_ne_getElem?.mp h i j hij hlt)

/-- Elements of a pool that are spaced by its size are no more than the pool has. -/
lemma Spaced.length_le {as pool : List ℕ} (h : Spaced pool.length as) (hsub : as ⊆ pool) :
    as.length ≤ pool.length := by
  by_contra hlong
  have hlen : (as.take (pool.length + 1)).length = pool.length + 1 := by
    rw [List.length_take]
    omega
  -- so many elements in a row are too near to each other for two of them to be equal
  have hnodup : (as.take (pool.length + 1)).Nodup := by
    rw [List.nodup_iff_getElem?_ne_getElem?]
    intro i j hij hj heq
    rw [hlen] at hj
    rw [List.getElem?_take_of_lt (by omega), List.getElem?_take_of_lt hj] at heq
    have hget : as[j]? = some as[j] := List.getElem?_eq_getElem (by omega)
    have := h i j _ hij (heq.trans hget) hget
    omega
  have hle := (hnodup.subperm fun a ha => hsub (List.mem_of_mem_take ha)).length_le
  omega

/-! ### Bounded paths -/

/-- One path has fewer hops left than another until it is longer than the bound. -/
def Path.Nearer (bound : ℕ) (q p : Path) : Prop := bound + 1 - q.length < bound + 1 - p.length

lemma Path.wellFounded_nearer (bound : ℕ) : WellFounded (Nearer bound) :=
  (measure fun p : Path => bound + 1 - p.length).wf

namespace Search

variable {g : Graph} {c : Config} {starts : List NodeId} {x : Search} {p : Path} {rest : List Path}
  {bound : ℕ}

/-- A turn lets finitely many paths wait in the place of one, all of them longer. -/
lemma exists_waiting_perm (g : Graph) (c : Config) (x : Search) (p : Path) (rest : List Path) :
    ∃ new, (x.advance g c p rest).waiting.Perm (rest ++ new) ∧
      ∀ q ∈ new, (x.accept p).1 = true ∧ c.continues g p = true ∧ q.length = p.length + 1 := by
  cases ha : (x.accept p).1
  · refine ⟨[], ?_, by simp⟩
    rw [advance_of_refuse ha, List.append_nil]
    exact .refl rest
  · refine ⟨c.successors g p, ?_, fun q hq => ?_⟩
    · rw [advance_of_accept ha]
      exact c.order.schedule_perm rest _
    · obtain ⟨hcont, hop, -, rfl⟩ := Config.mem_successors.mp hq
      exact ⟨rfl, hcont, Path.length_push p hop⟩

lemma cutExpand_advance (hw : x.waiting = p :: rest)
    (hp : (x.accept p).1 = true → c.continues g p = true → p.length ≤ bound) :
    Relation.CutExpand (Path.Nearer bound) ((x.advance g c p rest).waiting : Multiset Path)
      x.waiting := by
  obtain ⟨new, hperm, hnew⟩ := exists_waiting_perm g c x p rest
  refine ⟨new, p, fun q hq => ?_, ?_⟩
  · obtain ⟨ha, hcont, hlen⟩ := hnew q (Multiset.mem_coe.mp hq)
    have hle := hp ha hcont
    change bound + 1 - q.length < bound + 1 - p.length
    omega
  · have hlist : ((x.advance g c p rest).waiting ++ [p]).Perm (x.waiting ++ new) := by
      rw [hw]
      exact (hperm.append_right [p]).trans (List.perm_append_singleton p _)
    exact Multiset.coe_eq_coe.mpr hlist

/-- A search is over some time if the paths that are continued are no longer than a bound. -/
theorem exists_isSome_run_of_length_le (bound : ℕ) (Inv : Search → Prop)
    (hadvance : ∀ x p rest, x.waiting = p :: rest → Inv x → Inv (x.advance g c p rest))
    (hle : ∀ x, Inv x → ∀ p ∈ x.visited, c.continues g p = true → p.length ≤ bound) (hx : Inv x) :
    ∃ fuel, (run g c fuel x).isSome := by
  refine exists_isSome_run (Path.wellFounded_nearer bound).cutExpand
    (fun x => (x.waiting : Multiset Path)) Inv hadvance
    (fun x p rest hw hx _ => cutExpand_advance hw fun ha hcont => ?_) hx
  have hvisited : p ∈ (x.advance g c p rest).visited := by
    rw [visited_advance_of_accept ha]
    exact List.mem_append_right _ List.mem_cons_self
  exact hle _ (hadvance x p rest hw hx) p hvisited hcont

/-! ### Policies that bound paths -/

/-- Policies with global marks let no item come back at all. -/
lemma Guarded.nodup_along (h : x.Guarded c) {item : Uniqueness.Item}
    (hu : c.uniqueness = .once item .global) (hp : p ∈ x.visited) : (item.along p).Nodup := by
  rw [List.nodup_iff_getElem?_ne_getElem?]
  intro i j hij hj heq
  have hget : (item.along p)[j]? = some (item.along p)[j] := List.getElem?_eq_getElem hj
  have := (h.upTo_eq_of_global hu hp hp (heq.trans hget) hget).1
  omega

/-- A search is over some time if the items of walks come from a pool, and the policy keeps equal
ones apart by as many places as the pool has items. -/
theorem exists_isSome_run_of_pool (item : Uniqueness.Item) (pool : List ℕ)
    (hpool : ∀ p, c.Walk g starts p → item.along p ⊆ pool)
    (hspaced : ∀ x : Search, x.Guarded c → ∀ p ∈ x.visited, Spaced pool.length (item.along p)) :
    ∃ fuel, (run g c fuel (.init c starts)).isSome := by
  refine exists_isSome_run_of_length_le pool.length
    (fun x => x.Guarded c ∧ ∀ p ∈ x.seen, c.Walk g starts p)
    (fun x p rest hw hx => ⟨hx.1.advance hw, walk_advance hx.2 hw⟩)
    (fun x hx p hp _ => ?_) ⟨guarded_init, walk_init⟩
  have hwalk := hx.2 p (mem_seen_of_visited hp)
  have hlen : p.length ≤ (item.along p).length := by
    cases item <;> simp [Uniqueness.Item.along, Path.nodes, Path.relationships, Path.length]
  exact hlen.trans ((hspaced x hx.1 p hp).length_le (hpool p hwalk))

lemma along_subset_of_walk {item : Uniqueness.Item} {pool : List ℕ}
    (hstart : ∀ node ∈ starts, item.along (.single node) ⊆ pool)
    (hhop : ∀ node, ∀ hop ∈ c.nextHops g node, item.ofHop hop ∈ pool) (h : c.Walk g starts p) :
    item.along p ⊆ pool := by
  induction p using Path.pushRec with
  | single node => exact hstart node (Config.walk_single.mp h)
  | push p hop ih =>
    obtain ⟨hp, -, hnext⟩ := Config.walk_push.mp h
    rw [Uniqueness.Item.along_push]
    exact List.append_subset.mpr ⟨ih hp, by simpa using hhop p.last hop hnext⟩

theorem exists_isSome_run_of_once (hu : c.uniqueness = .once .node .global) (starts : List NodeId) :
    ∃ fuel, (run g c fuel (.init c starts)).isSome := by
  refine exists_isSome_run_of_pool .node ((starts ++ g.sites).map NodeId.val)
    (fun p hwalk => along_subset_of_walk (fun node hnode => ?_) (fun node hop hhop => ?_) hwalk)
    fun x hx p hp => spaced_of_nodup (hx.nodup_along hu hp) _
  · simpa [Uniqueness.Item.along] using .inl hnode
  · obtain ⟨r, hr, rfl⟩ := Config.exists_offered_of_mem_nextHops hhop
    obtain ⟨id, hid⟩ := Config.exists_relationship?_of_mem_offered hr
    exact List.mem_map_of_mem (List.mem_append_right _ (Graph.otherNode_mem_sites hid node))

end Search

/-! ### Graphs with few items -/

namespace Uniqueness.Item

def count (item : Item) (g : Graph) : ℕ :=
  match item with
  | .node => g.nodeCount
  | .relationship => g.relationshipCount

/-- The items of a plain graph, by number. -/
def pool (item : Item) (p : PlainGraph) : List ℕ :=
  match item with
  | .node => p.ids.map NodeId.val
  | .relationship => p.relationships.map fun r => r.id.val

variable {g : Graph} {p : PlainGraph} {c : Config} {starts : List NodeId} {w : Path}

lemma length_pool (item : Item) (h : g.Tracks p) : (item.pool p).length = item.count g := by
  cases item
  · simp [pool, count, PlainGraph.ids, h.agrees.nodeCount]
  · simp [pool, count, h.agrees.relationshipCount]

lemma along_subset_pool (item : Item) (h : g.Tracks p)
    (hstarts : ∀ node ∈ starts, (g.node? node).isSome) (hw : c.Walk g starts w) :
    item.along w ⊆ item.pool p := by
  refine Search.along_subset_of_walk (fun node hnode => ?_) (fun node hop hhop => ?_) hw
  · have hmem := (h.isSome_node?_iff node).mp (hstarts node hnode)
    cases item <;> simp [along, pool, hmem]
  · obtain ⟨r, hr, rfl⟩ := Config.exists_offered_of_mem_nextHops hhop
    obtain ⟨id, hid⟩ := Config.exists_relationship?_of_mem_offered hr
    obtain ⟨hmem, -⟩ := h.relationship?_eq_some_iff.mp hid
    obtain ⟨hsource, htarget⟩ := p.closed r hmem
    cases item with
    | node =>
      refine List.mem_map_of_mem (f := NodeId.val) ?_
      unfold Relationship.otherNode
      split
      · exact htarget
      · exact hsource
    | relationship => exact List.mem_map_of_mem (f := fun r : Relationship => r.id.val) hmem

end Uniqueness.Item

/-- No path goes on for ever: its length is bounded, or equal items of it are kept apart, by as many
places as the graph has items at least. -/
def Config.Confines (c : Config) (g : Graph) : Prop :=
  c.maxLevel.isSome = true ∨
    match c.uniqueness with
    | .once _ .global | .once _ .path => True
    | .once item .recent => item.count g ≤ max 1 c.recentWindow
    | .once _ .level | .unrestricted => False

namespace Search

variable {g : Graph} {c : Config} {starts : List NodeId} {x : Search} {p : Path}

lemma exists_isSome_run_of_maxLevel {bound : ℕ} (hbound : c.maxLevel = some bound) :
    ∃ fuel, (run g c fuel x).isSome := by
  refine exists_isSome_run_of_length_le bound (fun _ => True) (fun _ _ _ _ _ => trivial)
    (fun x _ p _ hcont => ?_) trivial
  rw [Config.continues, Bool.and_eq_true, Config.expandsAt, hbound, Option.all_some,
    decide_eq_true_eq] at hcont
  exact Nat.le_of_lt hcont.2

lemma exists_spaced_of_confines (h : c.Confines g) (hmax : c.maxLevel = none) :
    ∃ item : Uniqueness.Item, ∀ x : Search, x.Guarded c → ∀ p ∈ x.visited,
      Spaced (item.count g) (item.along p) := by
  have hpolicy := h.resolve_left (by simp [hmax])
  rcases hu : c.uniqueness with _ | ⟨item, _ | _ | _ | _⟩ <;> rw [hu] at hpolicy
  case unrestricted => exact hpolicy.elim
  case once.global =>
    exact ⟨item, fun x hx p hp => spaced_of_nodup (hx.nodup_along hu hp) _⟩
  case once.path =>
    refine ⟨item, fun x hx p hp => spaced_of_nodup ?_ _⟩
    have hallows := hx.allowed p hp
    rw [Config.Allows, hu] at hallows
    exact Uniqueness.nodup_along hallows
  case once.recent =>
    refine ⟨item, fun x hx p hp => Spaced.mono ?_ hpolicy⟩
    have hallows := hx.allowed p hp
    rw [Config.Allows, hu] at hallows
    exact Uniqueness.spaced_along hallows
  case once.level => exact hpolicy.elim

theorem exists_isSome_run_of_confines (hg : g.Reachable) (hc : c.Confines g)
    (hstarts : ∀ node ∈ starts, (g.node? node).isSome) :
    ∃ fuel, (run g c fuel (.init c starts)).isSome := by
  rcases hmax : c.maxLevel with _ | bound
  · obtain ⟨p, hp⟩ := hg.exists_tracks
    obtain ⟨item, hspaced⟩ := exists_spaced_of_confines hc hmax
    refine exists_isSome_run_of_pool item (item.pool p)
      (fun w hw => item.along_subset_pool hp hstarts hw) ?_
    rw [item.length_pool hp]
    exact hspaced
  · exact exists_isSome_run_of_maxLevel hmax

/-! ### Withdrawn searches -/

lemma length_queries_pos (f : RelationshipFilter) : 0 < f.queries.length := by
  unfold RelationshipFilter.queries RelationshipFilter.isAny
  split_ifs with h
  · exact Nat.one_pos
  · exact List.length_pos_iff.mpr fun hnil => h (List.isEmpty_iff.mpr hnil)

/-- A search is over some time if the caller withdraws it some time: either a turn makes queries, or
fewer paths wait after it. -/
theorem exists_isSome_run_of_after {n : ℕ} (hn : c.cancellation = .after n) (x : Search) :
    ∃ fuel, (run g c fuel x).isSome := by
  refine exists_isSome_run (WellFounded.prod_lex wellFounded_lt wellFounded_lt)
    (fun x => (n - x.queries, x.waiting.length)) (fun _ => True) (fun _ _ _ _ _ => trivial)
    (fun x p rest hw _ hstep => ?_) trivial
  have hrequested := isRequested_of_running hstep
  rw [hn] at hrequested
  have hlt : x.queries < n := not_le.mp (of_decide_eq_false hrequested)
  have hrest : rest.length < x.waiting.length := by
    rw [hw]
    exact Nat.lt_succ_self _
  cases ha : (x.accept p).1
  · rw [advance_of_refuse ha]
    exact .right _ hrest
  · rw [advance_of_accept ha]
    cases hcont : c.continues g p
    · have hnone : c.successors g p = [] := by
        rw [Config.successors, hcont, if_neg Bool.false_ne_true]
      simp only [expand, enter, hcont, hnone, Order.schedule_nil, Bool.false_eq_true, if_false,
        Nat.add_zero]
      exact .right _ hrest
    · simp only [expand, enter, hcont, if_true]
      refine .left _ _ ?_
      have hpos := length_queries_pos c.relationshipFilter
      omega

end Search

open Traversal

namespace Traversal

variable {g : Graph} {c : Config} {starts : List NodeId}

lemma isSome_node?_of_check (h : check g starts c = .ok ()) :
    ∀ node ∈ starts, (g.node? node).isSome := by
  intro node hnode
  unfold check at h
  split_ifs at h
  split at h
  · cases h
  · next hnone => simpa [Option.isSome_iff_ne_none] using List.find?_eq_none.mp hnone node hnode

lemma exists_isSome_traverse (h : (∀ node ∈ starts, (g.node? node).isSome) →
    ∃ fuel, (Search.run g c fuel (.init c starts)).isSome) :
    ∃ fuel, (traverse fuel g starts c).isSome := by
  rcases hcheck : check g starts c with e | ⟨⟩
  · refine ⟨0, ?_⟩
    rw [traverse, hcheck]
    rfl
  · obtain ⟨fuel, hfuel⟩ := h (isSome_node?_of_check hcheck)
    refine ⟨fuel, ?_⟩
    rw [traverse_eq_search hcheck, Option.isSome_map]
    exact hfuel

theorem exists_isSome_traverse_of_once (hu : c.uniqueness = .once .node .global)
    (starts : List NodeId) : ∃ fuel, (traverse fuel g starts c).isSome :=
  exists_isSome_traverse fun _ => Search.exists_isSome_run_of_once hu starts

lemma State.Unfolds.isEmpty_of_run {s : State} {x : Search} (h : s.Unfolds g c x)
    (hc : c.Exhaustive) {fuel : ℕ} {r : Except WalkError State}
    (hrun : State.run g c fuel s = some r) : ∃ t, r = .ok t ∧ t.frontier.isEmpty = true := by
  induction fuel generalizing s x with
  | zero => cases hrun
  | succ fuel ih =>
    have hstep := h.step
    rw [Search.step_of_exhaustive hc] at hstep
    rcases hw : x.waiting with _ | ⟨p, rest⟩
    · have hempty : s.frontier.isEmpty = true := by rw [h.isEmpty_frontier, hw]; rfl
      have hpop := (Frontier.pop?_eq_none_iff _).mpr ((Frontier.isEmpty_iff _).mp hempty)
      rw [State.run, State.step, hpop] at hrun
      cases hrun
      exact ⟨s, rfl, hempty⟩
    · rw [hw] at hstep
      rw [State.run] at hrun
      generalize s.step g c = progress at hstep hrun
      cases hstep with
      | running h' => exact ih h' hrun

end Traversal

/-- **Termination**: a traversal whose paths cannot go on for ever comes to an end, and if nothing
stops it no branch waits any more then. -/
theorem Traversal.comes_to_an_end {g : Graph} {c : Config} (hg : g.Reachable) (hc : c.Confines g)
    (starts : List NodeId) :
    (∃ fuel, (traverse fuel g starts c).isSome) ∧
      ((∀ node ∈ starts, (g.node? node).isSome) → c.Exhaustive →
        ∃ fuel s, State.run g c fuel (.init c starts) = some (.ok s) ∧
          s.frontier.isEmpty = true) := by
  have hsearch : (∀ node ∈ starts, (g.node? node).isSome) →
      ∃ fuel, (Search.run g c fuel (.init c starts)).isSome :=
    Search.exists_isSome_run_of_confines hg hc
  refine ⟨exists_isSome_traverse hsearch, fun hstarts hexhaustive => ?_⟩
  obtain ⟨fuel, hfuel⟩ := hsearch hstarts
  have hunfolds := State.unfolds_init g c starts
  rw [← Option.isSome_map, ← hunfolds.run fuel, Option.isSome_map] at hfuel
  obtain ⟨r, hr⟩ := Option.isSome_iff_exists.mp hfuel
  obtain ⟨s, rfl, hempty⟩ := hunfolds.isEmpty_of_run hexhaustive hr
  exact ⟨fuel, s, hr, hempty⟩

/-- Out and back, depth first: two relationships cannot be gone round for ever if the last two are
looked back at. -/
theorem Traversal.comes_to_an_end_twoWay :
    let c : Config :=
      { uniqueness := .once .relationship .recent, recentWindow := 2, order := .depthFirst }
    c.Confines .twoWay ∧ (∃ fuel, (traverse fuel .twoWay [⟨0⟩] c).isSome) ∧
      ∃ fuel s, State.run .twoWay c fuel (.init c [⟨0⟩]) = some (.ok s) ∧
        s.frontier.isEmpty = true := by
  intro c
  have hcount : Uniqueness.Item.relationship.count .twoWay ≤ max 1 2 := by decide +kernel
  have hconfines : c.Confines .twoWay := .inr hcount
  have hstarts : ∀ node ∈ [(⟨0⟩ : NodeId)], (Graph.twoWay.node? node).isSome := by decide +kernel
  obtain ⟨hends, hempty⟩ := comes_to_an_end (Graph.reachable_after_empty _) hconfines [⟨0⟩]
  exact ⟨hconfines, hends, hempty hstarts ⟨rfl, rfl⟩⟩

end GraphWalk
