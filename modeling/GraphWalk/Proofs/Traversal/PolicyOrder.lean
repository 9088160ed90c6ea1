import GraphWalk.Proofs.Traversal.FilterLaw
import GraphWalk.Proofs.Traversal.Following
import GraphWalk.Proofs.Traversal.Termination

/-!
Under a stricter uniqueness policy a traversal reports a part of what it reports under a weaker one,
in the same order.

The weaker policies looked at here see the branch alone, so they decide on a path whatever was
visited before. If they allow all that a search under the stricter policy visits, then what waits in
that search is always a part of what waits under the weaker policy, and the two visit in the same
order what they both visit.
-/

namespace GraphWalk

open Traversal

/-- The same traversal under another policy. -/
def Config.under (c : Config) (u : Uniqueness) (window : ℕ) : Config :=
  { c with uniqueness := u, recentWindow := window }

/-- Whenever both traversals come to an end, the first one reports a part of what the second one
reports, in the same order. -/
def Config.Narrows (g : Graph) (starts : List NodeId) (c' c : Config) : Prop :=
  ∀ fuel' fuel out' out, traverse fuel' g starts c' = some (.ok out') →
    traverse fuel g starts c = some (.ok out) → out'.paths.Sublist out.paths

/-! ### Which hops the policies permit -/

namespace Uniqueness

variable {item : Item} {p : Path} {hop : Hop} {window window' : ℕ}

lemma eachHop_path_of_nodup (h : (item.along p).Nodup) :
    p.EachHop ((once item .path).Permits window) := by
  induction p using Path.pushRec with
  | single node => exact Path.eachHop_single _ node
  | push p hop ih =>
    rw [Item.along_push, ← List.concat_eq_append, List.nodup_concat] at h
    exact Path.eachHop_push.mpr ⟨ih h.2, permits_path_iff.mpr h.1⟩

lemma permits_recent_of_path (h : (once item .path).Permits window' p hop) :
    (once item .recent).Permits window p hop := by
  rw [permits_path_iff] at h
  rw [permits_recent_iff]
  exact fun hmem => h (List.mem_reverse.mp (List.mem_of_mem_take hmem))

lemma permits_recent_of_le (hle : window ≤ window')
    (h : (once item .recent).Permits window' p hop) :
    (once item .recent).Permits window p hop := by
  rw [permits_recent_iff] at h ⊢
  exact fun hmem => h (List.take_subset_take_left _ hle hmem)

lemma Item.length_along_le (item : Item) (p : Path) : (item.along p).length ≤ p.length + 1 := by
  cases item <;> simp [along, Path.nodes, Path.relationships, Path.length]

lemma permits_path_of_recent (hle : p.length + 1 ≤ window)
    (h : (once item .recent).Permits window p hop) :
    (once item .path).Permits window' p hop := by
  have hall : (item.along p).reverse.take window = (item.along p).reverse :=
    List.take_of_length_le (by simpa using (item.length_along_le p).trans hle)
  rw [permits_recent_iff, hall, List.mem_reverse] at h
  exact permits_path_iff.mpr h

end Uniqueness

namespace Config.Walk

variable {g : Graph} {c : Config} {starts : List NodeId} {p : Path} {hop : Hop}

/-- A walk that takes a relationship again comes back to one of its ends. -/
lemma rel_notMem_of_node_notMem (h : c.Walk g starts (p.push hop)) (hg : g.Reachable)
    (hnode : hop.node ∉ p.nodes) : hop.rel ∉ p.relationships := by
  intro hrel
  obtain ⟨hop', hmem, hsame⟩ := List.mem_map.mp hrel
  obtain ⟨i, hi, rfl⟩ := List.mem_iff_getElem.mp hmem
  have hfirst : p.nodes[i]? = some (p.upTo i).last :=
    Path.getElem?_nodes.mpr ⟨Nat.le_of_lt hi, rfl⟩
  have hsecond : p.hops[i].node ∈ p.nodes := by
    rw [Path.nodes, List.mem_cons]
    exact .inr (List.mem_map_of_mem hmem)
  have hlast : (p.push hop).nodes[p.length]? = some p.last := by
    rw [Path.getElem?_nodes, Path.length_push, Path.upTo_push_of_le p hop le_rfl, Path.upTo_length]
    exact ⟨Nat.le_succ _, rfl⟩
  obtain ⟨r, hr, -, hends⟩ := (walk_push.mp h).1.exists_relationship hg
    (List.getElem?_eq_getElem hi) hfirst
  have hhop : (p.push hop).hops[p.length]? = some hop := by simp [Path.length]
  obtain ⟨r', hr', -, hends'⟩ := h.exists_relationship hg hhop hlast
  rw [← hsame, hr, Option.some.injEq] at hr'
  subst hr'
  -- both ends of the relationship are on the path by then, and the hop leads to one of them
  have hboth : r.source ∈ p.nodes ∧ r.target ∈ p.nodes := by
    rcases hends with ⟨hs, ht⟩ | ⟨ht, hs⟩
    · exact ⟨hs ▸ List.mem_of_getElem? hfirst, ht ▸ hsecond⟩
    · exact ⟨hs ▸ hsecond, ht ▸ List.mem_of_getElem? hfirst⟩
  rcases hends' with ⟨-, ht⟩ | ⟨-, hs⟩
  · exact hnode (ht ▸ hboth.2)
  · exact hnode (hs ▸ hboth.1)

lemma of_under {u : Uniqueness} {window : ℕ} (h : (c.under u window).Walk g starts p) :
    c.Walk g starts p := ⟨h.start, h.hops⟩

lemma allows_under {u : Uniqueness} {window : ℕ} (h : c.Walk g starts p)
    (himp : ∀ q hop, c.Walk g starts (q.push hop) → u.Permits (max 1 window) q hop →
      c.uniqueness.Permits (max 1 c.recentWindow) q hop)
    (hp : (c.under u window).Allows p) : c.Allows p := by
  induction p using Path.pushRec with
  | single node => exact Path.eachHop_single _ node
  | push p hop ih =>
    obtain ⟨hallows, hhop⟩ := allows_push.mp hp
    exact allows_push.mpr ⟨ih (walk_push.mp h).1 hallows, himp p hop h hhop⟩

end Config.Walk

/-! ### A search as part of another one -/

namespace Search

variable {g : Graph} {c c' : Config} {starts : List NodeId} {x y : Search} {p : Path}
  {rest : List Path} {u : Uniqueness} {window : ℕ}

lemma Guarded.accept_of_allows (h : x.Guarded c) (hlocal : c.uniqueness.IsLocal)
    (hp : c.Allows p) : (x.accept p).1 = true := by
  have hpolicy : x.tracker.policy.IsLocal := h.policy ▸ hlocal
  rcases p.eq_single_or_push with ⟨node, rfl⟩ | ⟨q, hop, rfl⟩
  · exact Tracker.accept_start hpolicy node _
  · rw [accept, Path.lineage_push, List.tail_cons, Path.step_push, Tracker.accept_hop hpolicy,
      h.policy, h.window]
    exact (Config.allows_push.mp hp).2

lemma mem_visited_advance_of_accept (g : Graph) (c : Config) (rest : List Path)
    (h : (x.accept p).1 = true) : p ∈ (x.advance g c p rest).visited := by
  rw [visited_advance_of_accept h]
  exact List.mem_append_right _ List.mem_cons_self

lemma rest_sublist_advance (x : Search) (p : Path) (rest : List Path) :
    rest.Sublist (x.advance g c p rest).waiting := by
  cases ha : (x.accept p).1
  · rw [advance_of_refuse ha]
    exact .refl rest
  · rw [advance_of_accept ha]
    exact Order.rest_sublist_schedule c.order rest _

lemma visited_sublist_advance (x : Search) (p : Path) (rest : List Path) :
    x.visited.Sublist (x.advance g c p rest).visited := by
  rcases (visited_advance : (x.advance g c p rest).visited = _ ∨ _) with hv | hv
  · rw [hv]
  · rw [hv]
    exact List.sublist_append_left _ _

end Search

/-- The policy allows whatever a search under the other policy visits. -/
def Config.Admits (c : Config) (g : Graph) (starts : List NodeId) (u : Uniqueness) (window : ℕ) :
    Prop :=
  ∀ z : Search, z.Guarded (c.under u window) → ∀ p ∈ z.visited, c.Walk g starts p → c.Allows p

namespace Search

variable {g : Graph} {c c' : Config} {starts : List NodeId} {x y : Search} {p : Path}
  {rest : List Path} {u : Uniqueness} {window : ℕ}

/-- The second search has visited a part of what the first one has, and so much of what waits in the
first one waits in it. -/
structure Contains (g : Graph) (starts : List NodeId) (c c' : Config) (x y : Search) : Prop where
  waiting : y.waiting.Sublist x.waiting
  visited : y.visited.Sublist x.visited
  guarded : x.Guarded c
  guarded' : y.Guarded c'
  walk : ∀ p ∈ y.seen, c.Walk g starts p

namespace Contains

lemma init : Contains g starts c (c.under u window)
    (init c starts) (init (c.under u window) starts) where
  waiting := .refl _
  visited := .refl _
  guarded := guarded_init
  guarded' := guarded_init
  walk := fun p hp => (walk_init p hp).of_under

lemma advance_left (h : Contains g starts c c' x y) (hw : x.waiting = p :: rest)
    (hrest : y.waiting.Sublist rest) : Contains g starts c c' (x.advance g c p rest) y where
  waiting := hrest.trans (rest_sublist_advance x p rest)
  visited := h.visited.trans (visited_sublist_advance x p rest)
  guarded := h.guarded.advance hw
  guarded' := h.guarded'
  walk := h.walk

lemma advance_both {rest' : List Path} (hlocal : c.uniqueness.IsLocal)
    (hadmits : c.Admits g starts u window) (h : Contains g starts c (c.under u window) x y)
    (hw : x.waiting = p :: rest) (hw' : y.waiting = p :: rest') (hrest : rest'.Sublist rest) :
    Contains g starts c (c.under u window) (x.advance g c p rest)
      (y.advance g (c.under u window) p rest') := by
  have hguarded : (y.advance g (c.under u window) p rest').Guarded (c.under u window) :=
    h.guarded'.advance hw'
  have hwalk : ∀ q ∈ (y.advance g (c.under u window) p rest').seen, c.Walk g starts q := by
    intro q hq
    rcases mem_seen_advance hw' hq with hq | hq
    · exact h.walk q hq
    · exact (h.walk p (mem_seen_of_waiting hw')).of_mem_successors hq
  cases ha' : (y.accept p).1
  · refine ⟨?_, ?_, h.guarded.advance hw, hguarded, hwalk⟩
    · rw [advance_of_refuse ha']
      exact hrest.trans (rest_sublist_advance x p rest)
    · rw [visited_advance_of_refuse ha']
      exact h.visited.trans (visited_sublist_advance x p rest)
  · have hp := mem_visited_advance_of_accept g (c.under u window) rest' ha'
    have hallows : c.Allows p := hadmits _ hguarded p hp (hwalk p (mem_seen_of_visited hp))
    have ha := h.guarded.accept_of_allows hlocal hallows
    refine ⟨?_, ?_, h.guarded.advance hw, hguarded, hwalk⟩
    · rw [advance_of_accept ha, advance_of_accept ha']
      exact c.order.schedule_sublist hrest (c.successors g p)
    · rw [visited_advance_of_accept ha, visited_advance_of_accept ha']
      exact h.visited.append_right [p]

lemma follows (hlocal : c.uniqueness.IsLocal) (hadmits : c.Admits g starts u window) :
    Follows g c (c.under u window) (Contains g starts c (c.under u window)) := by
  intro x y p rest h hw
  have hsub := h.waiting
  rw [hw, List.sublist_cons_iff] at hsub
  rcases hsub with hrest | ⟨rest', hw', hrest⟩
  · exact .inl (h.advance_left hw hrest)
  · exact .inr ⟨rest', hw', h.advance_both hlocal hadmits hw hw' hrest⟩

end Contains

end Search

namespace Config

variable {g : Graph} {c : Config} {starts : List NodeId} {u : Uniqueness} {window : ℕ}

/-- A policy narrows another one that looks at the branch alone and allows all that is visited. -/
theorem narrows_of_admits (hc : c.Exhaustive) (hlocal : c.uniqueness.IsLocal)
    (hadmits : c.Admits g starts u window) : Narrows g starts (c.under u window) c := by
  intro fuel' fuel out' out h' h
  have hend : ∀ x y, Search.Contains g starts c (c.under u window) x y → x.waiting = [] →
      y.waiting = [] := by
    intro x y hxy hx
    have hsub := hxy.waiting
    rwa [hx, List.sublist_nil] at hsub
  have hc' : (c.under u window).Exhaustive := ⟨hc.limit, hc.cancellation⟩
  obtain ⟨x, y, hxy, hx, hy⟩ := exists_related_of_traverse hc hc'
    (Search.Contains.follows hlocal hadmits) Search.Contains.init hend h h'
  rw [hx, hy]
  exact hxy.visited.filter _

theorem narrows_of_permits (hc : c.Exhaustive) (hlocal : c.uniqueness.IsLocal)
    (himp : ∀ q hop, c.Walk g starts (q.push hop) → u.Permits (max 1 window) q hop →
      c.uniqueness.Permits (max 1 c.recentWindow) q hop) :
    Narrows g starts (c.under u window) c :=
  narrows_of_admits hc hlocal fun _ hz p hp hwalk => hwalk.allows_under himp (hz.allowed p hp)

end Config

/-- How the uniqueness policies compare for one traversal: under the first of two a part of what is
reported under the second is reported, in the same order. -/
structure PolicyOrder (g : Graph) (starts : List NodeId) (c : Config) : Prop where
  global_path : ∀ item window window', Config.Narrows g starts
    (c.under (.once item .global) window) (c.under (.once item .path) window')
  node_relationship : ∀ window window', Config.Narrows g starts
    (c.under (.once .node .path) window) (c.under (.once .relationship .path) window')
  path_unrestricted : ∀ item window window', Config.Narrows g starts
    (c.under (.once item .path) window) (c.under .unrestricted window')
  path_recent : ∀ item window window', Config.Narrows g starts
    (c.under (.once item .path) window) (c.under (.once item .recent) window')
  recent_recent : ∀ item window window', window' ≤ window → Config.Narrows g starts
    (c.under (.once item .recent) window) (c.under (.once item .recent) window')
  /-- Who looks back as far as paths may go reports the same as who looks at the whole path. -/
  recent_path : ∀ item window window' bound, c.maxLevel = some bound → bound ≤ window →
    ∀ fuel fuel' out out',
      traverse fuel g starts (c.under (.once item .recent) window) = some (.ok out) →
      traverse fuel' g starts (c.under (.once item .path) window') = some (.ok out') →
      out.paths = out'.paths

/-- **The policies are ordered**: of what a traversal that nothing stops reports, a stricter policy
leaves a part, in the same order. -/
theorem Traversal.stricter_policies_narrow {g : Graph} {c : Config} (hg : g.Reachable)
    (hc : c.Exhaustive) (starts : List NodeId) : PolicyOrder g starts c := by
  have hunder : ∀ u window, (c.under u window).Exhaustive :=
    fun _ _ => ⟨hc.limit, hc.cancellation⟩
  have hpath : ∀ item window window', Config.Narrows g starts
      (c.under (.once item .path) window) (c.under (.once item .recent) window') :=
    fun item window window' => Config.narrows_of_permits (hunder (.once item .recent) window')
      trivial fun q hop _ => Uniqueness.permits_recent_of_path
  refine ⟨fun item window window' => ?_, fun window window' => ?_, fun item window window' => ?_,
    hpath, fun item window window' hle => ?_, fun item window window' bound hbound hle => ?_⟩
  · refine Config.narrows_of_admits (hunder (.once item .path) window') trivial ?_
    intro z hz p hp _
    exact Uniqueness.eachHop_path_of_nodup (hz.nodup_along rfl hp)
  · refine Config.narrows_of_permits (hunder (.once .relationship .path) window') trivial ?_
    intro q hop hwalk hnode
    exact hwalk.rel_notMem_of_node_notMem hg hnode
  · exact Config.narrows_of_permits (hunder .unrestricted window') trivial fun _ _ _ _ => trivial
  · refine Config.narrows_of_permits (hunder (.once item .recent) window') trivial ?_
    intro q hop _
    exact Uniqueness.permits_recent_of_le (max_le_max_left 1 hle)
  · intro fuel fuel' out out' h h'
    have hrecent : Config.Narrows g starts (c.under (.once item .recent) window)
        (c.under (.once item .path) window') := by
      refine Config.narrows_of_permits (hunder (.once item .path) window') trivial ?_
      intro q hop hwalk
      have hlen : (q.push hop).length ≤ bound := hwalk.length_le hbound
      rw [Path.length_push] at hlen
      exact Uniqueness.permits_path_of_recent (hlen.trans (hle.trans (le_max_right 1 window)))
    exact (hrecent _ _ _ _ h h').antisymm (hpath item window' window _ _ _ _ h' h)

/-- Out by either relationship paths go, and back by the other one if the node may come again. -/
theorem Traversal.stricter_policies_narrow_twoWay :
    let c : Config := { maxLevel := some 2 }
    ∃ out out', traverse 12 .twoWay [⟨0⟩] (c.under (.once .node .path) 0) = some (.ok out) ∧
      traverse 12 .twoWay [⟨0⟩] (c.under (.once .relationship .path) 0) = some (.ok out') ∧
      out.paths.length = 3 ∧ out'.paths.length = 5 ∧ out.paths.Sublist out'.paths := by
  intro c
  have hrun : traverse 12 .twoWay [⟨0⟩] (c.under (.once .node .path) 0) =
      some (.ok ⟨[⟨⟨0⟩, []⟩, ⟨⟨0⟩, [⟨⟨0⟩, ⟨1⟩⟩]⟩, ⟨⟨0⟩, [⟨⟨1⟩, ⟨1⟩⟩]⟩],
        ⟨3, 3, 0, 1, false⟩⟩) := by
    decide +kernel
  have hrun' : traverse 12 .twoWay [⟨0⟩] (c.under (.once .relationship .path) 0) =
      some (.ok ⟨[⟨⟨0⟩, []⟩, ⟨⟨0⟩, [⟨⟨0⟩, ⟨1⟩⟩]⟩, ⟨⟨0⟩, [⟨⟨1⟩, ⟨1⟩⟩]⟩,
        ⟨⟨0⟩, [⟨⟨0⟩, ⟨1⟩⟩, ⟨⟨1⟩, ⟨0⟩⟩]⟩, ⟨⟨0⟩, [⟨⟨1⟩, ⟨1⟩⟩, ⟨⟨0⟩, ⟨0⟩⟩]⟩],
        ⟨5, 5, 0, 2, false⟩⟩) := by
    decide +kernel
  have horder : PolicyOrder .twoWay [⟨0⟩] c :=
    stricter_policies_narrow (Graph.reachable_after_empty _) ⟨rfl, rfl⟩ [⟨0⟩]
  exact ⟨_, _, hrun, hrun', rfl, rfl, horder.node_relationship 0 0 _ _ _ _ hrun hrun'⟩

end GraphWalk
