import GraphWalk.Proofs.Traversal.Starts

/-!
Which nodes a traversal reaches does not depend on its order.

With every node once, the paths that claim the nodes depend on the order, and so do their lengths.
But if no level is asked for beyond the first hop and none is the last one, all paths with a hop are
judged by the node at their end. From one start it is only the start that a path without a hop
claims. So what becomes of a node is the same in every order, and whatever is left undone in one
order is left undone in all.
-/

namespace GraphWalk

namespace Config

/-- Paths that have a hop are not told apart by their lengths. -/
structure IgnoresLength (c : Config) : Prop where
  minLevel : c.minLevel ≤ 1
  maxLevel : c.maxLevel = none

/-- The same settings with another order. -/
def inOrder (c : Config) (order : Order) : Config := { c with order := order }

/-- What becomes of a path that claims the node, in a traversal from one start. -/
def verdict (c : Config) (g : Graph) (start node : NodeId) : Evaluation :=
  c.evaluate node (g.labels node) (if node = start then 0 else 1)

variable {c : Config} {g : Graph} {p q : Path} {starts : List NodeId} {node : NodeId}

lemma IgnoresLength.evaluate_eq (h : c.IgnoresLength) {depth depth' : ℕ} (hpos : 0 < depth)
    (hpos' : 0 < depth') (labels : List String) :
    c.evaluate node labels depth = c.evaluate node labels depth' :=
  evaluate_eq_of_minLevel_le hpos hpos' (h.minLevel.trans hpos) (h.minLevel.trans hpos')

lemma IgnoresLength.continues_eq (h : c.IgnoresLength) (hlast : p.last = q.last)
    (hp : 0 < p.length) (hq : 0 < q.length) : c.continues g p = c.continues g q := by
  have hat : ∀ depth, c.expandsAt depth = true := fun depth => by simp [expandsAt, h.maxLevel]
  rw [continues, continues, judge, judge, hlast, h.evaluate_eq hp hq, hat, hat]

lemma walk_inOrder {order : Order} : (c.inOrder order).Walk g starts p ↔ c.Walk g starts p :=
  ⟨fun h => ⟨h.start, h.hops⟩, fun h => ⟨h.start, h.hops⟩⟩

end Config

namespace Search

variable {g : Graph} {c : Config} {starts : List NodeId} {start : NodeId} {x : Search}
  {p : Path} {rest : List Path}

/-- What holds before every turn of a search that visits nodes once: no node is lost to which a path
visited is continued. -/
structure Spreads (g : Graph) (c : Config) (starts : List NodeId) (x : Search) : Prop where
  serves : x.Serves g c starts
  successors : ∀ p ∈ x.visited, ∀ q ∈ c.successors g p, x.Secures q

lemma spreads_init (hu : c.uniqueness = .once .node .global) :
    (init c starts).Spreads g c starts where
  serves := serves_init hu
  successors := fun _ hp => absurd hp List.not_mem_nil

namespace Spreads

lemma advance (h : x.Spreads g c starts) (hw : x.waiting = p :: rest) :
    (x.advance g c p rest).Spreads g c starts := by
  refine ⟨h.serves.advance hw, fun v hv q hq => ?_⟩
  have hkeep : v ∈ x.visited → (x.advance g c p rest).Secures q := fun hv =>
    h.serves.claims.secures_advance hw (h.successors v hv q hq)
  cases ha : (x.accept p).1
  · exact hkeep (visited_advance_of_refuse ha ▸ hv)
  · rw [visited_advance_of_accept ha, List.mem_append, List.mem_singleton] at hv
    rcases hv with hv | rfl
    · exact hkeep hv
    · rw [advance_of_accept ha]
      exact .inl (Order.mem_schedule.mpr (.inr hq))

lemma length_eq_zero_iff (h : x.Spreads g c [start]) (hp : p ∈ x.visited) :
    p.length = 0 ↔ p.last = start := by
  have hstart : p.start = start :=
    List.mem_singleton.mp (h.serves.walk p (mem_seen_of_visited hp)).start
  rcases p.eq_single_or_push with ⟨node, rfl⟩ | ⟨q, hop, rfl⟩
  · exact iff_of_true rfl hstart
  · have hpos : 0 < (q.push hop).length := by simp
    have hne := h.serves.claims.start_ne_last h.serves.grown hp hpos
    exact iff_of_false (Nat.ne_of_gt hpos) fun hlast => hne (hstart.trans hlast.symm)

lemma judge_eq (h : x.Spreads g c [start]) (hc : c.IgnoresLength) (hp : p ∈ x.visited) :
    c.judge g p = c.verdict g start p.last := by
  unfold Config.judge Config.verdict
  split_ifs with hlast
  · rw [(h.length_eq_zero_iff hp).mpr hlast]
  · have hpos := Nat.pos_of_ne_zero (mt (h.length_eq_zero_iff hp).mp hlast)
    exact hc.evaluate_eq hpos Nat.one_pos _

lemma exists_visited (h : x.Spreads g c [start]) (hc : c.IgnoresLength) (hw : x.waiting = [])
    (w : Path) (hwalk : c.Walk g [start] w) : ∃ p ∈ x.visited, p.last = w.last := by
  induction w using Path.pushRec with
  | single node => exact h.serves.exists_visited hw (Config.walk_single.mp hwalk)
  | push w hop ih =>
    obtain ⟨hwalk, hcont, hhop⟩ := Config.walk_push.mp hwalk
    obtain ⟨p, hp, hlast⟩ := ih hwalk
    -- a path without a hop goes on sooner than `w`, and a path with one goes on if `w` has one too
    have hpcont : c.continues g p = true := by
      rcases Nat.eq_zero_or_pos p.length with hzero | hpos
      · exact Config.continues_of_le hlast (hzero ▸ Nat.zero_le _) hcont
      · rcases w.eq_single_or_push with ⟨node, rfl⟩ | ⟨w, hop', rfl⟩
        · have hnode : node = start := List.mem_singleton.mp (Config.walk_single.mp hwalk)
          have hzero := (h.length_eq_zero_iff hp).mpr (hlast.trans hnode)
          exact absurd hzero (Nat.ne_of_gt hpos)
        · rwa [hc.continues_eq hlast hpos (by simp)]
    have hsucc : p.push hop ∈ c.successors g p :=
      Config.push_mem_successors.mpr ⟨rfl, hpcont, hlast ▸ hhop⟩
    rcases h.successors p hp _ hsucc with hwait | hclaimed
    · rw [hw] at hwait
      exact absurd hwait List.not_mem_nil
    · rw [Path.last_push] at hclaimed ⊢
      exact List.mem_map.mp hclaimed

lemma mem_ends_iff (h : x.Spreads g c [start]) (hc : c.IgnoresLength) (hw : x.waiting = [])
    (node : NodeId) :
    node ∈ x.visited.map Path.last ↔ ∃ w, c.Walk g [start] w ∧ w.last = node := by
  rw [List.mem_map]
  constructor
  · rintro ⟨p, hp, hlast⟩
    exact ⟨p, h.serves.walk p (mem_seen_of_visited hp), hlast⟩
  · rintro ⟨w, hwalk, rfl⟩
    exact h.exists_visited hc hw w hwalk

lemma map_last_found (h : x.Spreads g c [start]) (hc : c.IgnoresLength) :
    (x.found g c).map Path.last =
      (x.visited.map Path.last).filter fun node => (c.verdict g start node).includes := by
  rw [found, List.filter_map]
  congr 1
  refine List.filter_congr fun p hp => ?_
  rw [h.judge_eq hc hp]
  rfl

lemma pruned_eq (h : x.Spreads g c [start]) (hc : c.IgnoresLength) :
    (x.stats g c).pruned =
      (x.visited.map Path.last).countP fun node => c.verdict g start node = .prune := by
  rw [List.countP_map]
  refine List.countP_congr fun p hp => ?_
  simp [h.judge_eq hc hp]

end Spreads

end Search

open Traversal

/-- What a traversal from `start` that visits `visits` does to the nodes that its walks lead to,
whatever its order: it visits each of them once, and it reports and prunes as the node says. -/
structure ClaimsNodes (g : Graph) (c : Config) (start : NodeId) (visits : List Path)
    (out : Output) : Prop where
  visited : out.stats.visited = visits.length
  once : (visits.map Path.last).Nodup
  reached : ∀ node, node ∈ visits.map Path.last ↔ ∃ w, c.Walk g [start] w ∧ w.last = node
  pruned : out.stats.pruned =
    (visits.map Path.last).countP fun node => c.verdict g start node = .prune
  ends : out.paths.map Path.last =
    (visits.map Path.last).filter fun node => (c.verdict g start node).includes

lemma ClaimsNodes.of_inOrder {g : Graph} {c : Config} {order : Order} {start : NodeId}
    {visits : List Path} {out : Output} (h : ClaimsNodes g (c.inOrder order) start visits out) :
    ClaimsNodes g c start visits out where
  visited := h.visited
  once := h.once
  reached := fun node =>
    (h.reached node).trans (exists_congr fun _ => and_congr_left' Config.walk_inOrder)
  pruned := h.pruned
  ends := h.ends

/-- Two traversals reach the same nodes. -/
structure ReachSame (visits visits' : List Path) (out out' : Output) : Prop where
  visited : out.stats.visited = visits.length ∧ out'.stats.visited = visits'.length
  once : (visits.map Path.last).Nodup ∧ (visits'.map Path.last).Nodup
  nodes : ∀ node, node ∈ visits.map Path.last ↔ node ∈ visits'.map Path.last
  pruned : out.stats.pruned = out'.stats.pruned
  ends : ∀ node, node ∈ out.paths.map Path.last ↔ node ∈ out'.paths.map Path.last

lemma ClaimsNodes.reachSame {g : Graph} {c : Config} {start : NodeId} {visits visits' : List Path}
    {out out' : Output} (h : ClaimsNodes g c start visits out)
    (h' : ClaimsNodes g c start visits' out') : ReachSame visits visits' out out' := by
  have hnodes : ∀ node, node ∈ visits.map Path.last ↔ node ∈ visits'.map Path.last := fun node =>
    (h.reached node).trans (h'.reached node).symm
  refine ⟨⟨h.visited, h'.visited⟩, ⟨h.once, h'.once⟩, hnodes, ?_, fun node => ?_⟩
  · rw [h.pruned, h'.pruned]
    exact ((List.perm_ext_iff_of_nodup h.once h'.once).mpr hnodes).countP_eq _
  · rw [h.ends, h'.ends, List.mem_filter, List.mem_filter, hnodes]

namespace Traversal

variable {g : Graph} {start : NodeId} {c : Config}

lemma exists_claimsNodes (hstart : (g.node? start).isSome) (hsample : c.sample ≠ some 0)
    (hc : c.Exhaustive) (hu : c.uniqueness = .once .node .global) (hlength : c.IgnoresLength)
    {order : Order} {fuel : ℕ} {r : Except WalkError Output}
    (h : traverse fuel g [start] (c.inOrder order) = some r) :
    ∃ out, r = .ok out ∧ ClaimsNodes g c start (visits fuel g [start] (c.inOrder order)) out := by
  have hcheck : check g [start] (c.inOrder order) = .ok () :=
    check_eq_ok hsample (by simpa using hstart)
  have hlength' : (c.inOrder order).IgnoresLength := ⟨hlength.minLevel, hlength.maxLevel⟩
  obtain ⟨z, rfl, hvisits, hz, hw⟩ := exists_of_traverse_exhaustive hcheck
    ⟨hc.limit, hc.cancellation⟩ (fun _ _ _ hw hx => Search.Spreads.advance hx hw)
    (Search.spreads_init hu) h
  refine ⟨_, rfl, ?_⟩
  rw [hvisits]
  have hclaims : ClaimsNodes g (c.inOrder order) start z.visited (z.output g (c.inOrder order)) :=
    { visited := rfl
      once := hz.serves.claims.once
      reached := hz.mem_ends_iff hlength' hw
      pruned := hz.pruned_eq hlength'
      ends := hz.map_last_found hlength' }
  exact hclaims.of_inOrder

/-- **Reach**: from one start, with every node once, no level asked for beyond the first and no last
one, a traversal that nothing stops comes to an end in either order, and the two have then visited
the same nodes, pruned as many and reported paths to the same ones. -/
theorem orders_reach_same (hstart : (g.node? start).isSome) (hsample : c.sample ≠ some 0)
    (hc : c.Exhaustive) (hu : c.uniqueness = .once .node .global) (hlength : c.IgnoresLength) :
    (∀ order, ∃ fuel, (traverse fuel g [start] (c.inOrder order)).isSome) ∧
      ∀ fuel r, traverse fuel g [start] (c.inOrder .depthFirst) = some r →
      ∀ fuel' r', traverse fuel' g [start] (c.inOrder .breadthFirst) = some r' →
        ∃ out out', r = .ok out ∧ r' = .ok out' ∧
          ReachSame (visits fuel g [start] (c.inOrder .depthFirst))
            (visits fuel' g [start] (c.inOrder .breadthFirst)) out out' := by
  refine ⟨fun order => exists_isSome_traverse_of_once (c := c.inOrder order) hu [start],
    fun fuel r h fuel' r' h' => ?_⟩
  obtain ⟨out, rfl, hout⟩ := exists_claimsNodes hstart hsample hc hu hlength h
  obtain ⟨out', rfl, hout'⟩ := exists_claimsNodes hstart hsample hc hu hlength h'
  exact ⟨out, out', rfl, rfl, hout.reachSame hout'⟩

/-- In a square, the last corner is reached round the other three or from the first at once. -/
theorem orders_reach_same_square :
    let c : Config := { uniqueness := .once .node .global, minLevel := 1 }
    ∃ deep wide, traverse 20 .square [⟨0⟩] (c.inOrder .depthFirst) = some (.ok deep) ∧
      traverse 20 .square [⟨0⟩] (c.inOrder .breadthFirst) = some (.ok wide) ∧
      deep.paths.map Path.length = [1, 2, 3] ∧ wide.paths.map Path.length = [1, 1, 2] ∧
      ReachSame (visits 20 .square [⟨0⟩] (c.inOrder .depthFirst))
        (visits 20 .square [⟨0⟩] (c.inOrder .breadthFirst)) deep wide := by
  intro c
  have hdeep : traverse 20 .square [⟨0⟩] (c.inOrder .depthFirst) = some (.ok
      { paths := [⟨⟨0⟩, [⟨⟨0⟩, ⟨1⟩⟩]⟩, ⟨⟨0⟩, [⟨⟨0⟩, ⟨1⟩⟩, ⟨⟨2⟩, ⟨3⟩⟩]⟩,
          ⟨⟨0⟩, [⟨⟨0⟩, ⟨1⟩⟩, ⟨⟨2⟩, ⟨3⟩⟩, ⟨⟨3⟩, ⟨2⟩⟩]⟩]
        stats := { visited := 4, emitted := 3, maxDepthReached := 3 } }) := by
    decide +kernel
  have hwide : traverse 20 .square [⟨0⟩] (c.inOrder .breadthFirst) = some (.ok
      { paths := [⟨⟨0⟩, [⟨⟨0⟩, ⟨1⟩⟩]⟩, ⟨⟨0⟩, [⟨⟨1⟩, ⟨2⟩⟩]⟩, ⟨⟨0⟩, [⟨⟨0⟩, ⟨1⟩⟩, ⟨⟨2⟩, ⟨3⟩⟩]⟩]
        stats := { visited := 4, emitted := 3, maxDepthReached := 2 } }) := by
    decide +kernel
  refine ⟨_, _, hdeep, hwide, rfl, rfl, ?_⟩
  obtain ⟨deep, wide, hdeep', hwide', hsame⟩ := (@orders_reach_same .square ⟨0⟩ c (by decide)
    (by decide) ⟨rfl, rfl⟩ rfl ⟨by decide, rfl⟩).2 20 _ hdeep 20 _ hwide
  cases hdeep'
  cases hwide'
  exact hsame

end Traversal

end GraphWalk
