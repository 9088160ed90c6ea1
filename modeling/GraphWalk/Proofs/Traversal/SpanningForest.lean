import GraphWalk.Proofs.Traversal.Repetition
import GraphWalk.Proofs.Traversal.Rows
import GraphWalk.Proofs.Traversal.ShortestPaths
import Mathlib.Data.List.ReduceOption

/-!
The rows of a spanning tree form a forest whose roots are the starts.

Whatever order and policy the caller asks for, every node is entered by one hop only, since each
node is visited once and each path goes on from paths that were visited.
-/

namespace GraphWalk

open Traversal

/-- Paths that make up a forest whose roots are among the starts, shorter ones first. -/
structure SpanningForest (starts : List NodeId) (paths : List Path) : Prop where
  start : ∀ p ∈ paths, p.start ∈ starts
  ends : (paths.map Path.last).Nodup
  simple : ∀ p ∈ paths, p.nodes.Nodup
  unentered : ∀ p ∈ paths, ∀ hop ∈ p.hops, hop.node ∉ starts
  /-- A node is entered from one node by one relationship. -/
  entry : ∀ p ∈ paths, ∀ q ∈ paths, ∀ (i j : ℕ) (hop hop' : Hop), p.hops[i]? = some hop →
    q.hops[j]? = some hop' → hop.node = hop'.node →
      p.nodes[i]? = q.nodes[j]? ∧ hop.rel = hop'.rel
  agree : ∀ p ∈ paths, ∀ q ∈ paths, ∀ (i j : ℕ) (node : NodeId), p.nodes[i]? = some node →
    q.nodes[j]? = some node → i = j ∧ p.upTo i = q.upTo j
  sorted : paths.Pairwise fun p q => p.length ≤ q.length

namespace SpanningForest

variable {starts : List NodeId} {paths : List Path}

lemma sublist {paths' : List Path} (h : SpanningForest starts paths)
    (hsub : paths'.Sublist paths) : SpanningForest starts paths' := by
  have hmem : ∀ p ∈ paths', p ∈ paths := fun p hp => hsub.subset hp
  exact
    { start := fun p hp => h.start p (hmem p hp)
      ends := h.ends.sublist (hsub.map _)
      simple := fun p hp => h.simple p (hmem p hp)
      unentered := fun p hp => h.unentered p (hmem p hp)
      entry := fun p hp q hq => h.entry p (hmem p hp) q (hmem q hq)
      agree := fun p hp q hq => h.agree p (hmem p hp) q (hmem q hq)
      sorted := h.sorted.sublist hsub }

end SpanningForest

lemma Path.entry_eq_of_upTo_eq {p q : Path} {i : ℕ} {hop hop' : Hop}
    (h : p.upTo (i + 1) = q.upTo (i + 1)) (hp : p.hops[i]? = some hop)
    (hq : q.hops[i]? = some hop') : p.nodes[i]? = q.nodes[i]? ∧ hop.rel = hop'.rel := by
  have hhops : p.hops.take (i + 1) = q.hops.take (i + 1) := congrArg Path.hops h
  have hsame : hop = hop' := by
    have hi := congrArg (fun hops : List Hop => hops[i]?) hhops
    simpa [hp, hq] using hi
  have hbefore : p.upTo i = q.upTo i := by
    have htake := congrArg (fun r : Path => r.upTo i) h
    simpa [upTo, List.take_take] using htake
  have hle := fun (r : Path) (hop : Hop) (hr : r.hops[i]? = some hop) =>
    Nat.le_of_lt (List.getElem?_eq_some_iff.mp hr).1
  refine ⟨?_, congrArg Hop.rel hsame⟩
  rw [getElem?_nodes.mpr ⟨hle p hop hp, rfl⟩, getElem?_nodes.mpr ⟨hle q hop' hq, rfl⟩, hbefore]

namespace Search

variable {g : Graph} {c : Config} {starts : List NodeId} {x : Search} {p q : Path}
  {rest : List Path}

/-- No path visited enters a start: the start itself would have been visited before. -/
lemma Layered.not_mem_starts (h : x.Layered g c starts) {hop : Hop}
    (hp : p.push hop ∈ x.visited) : hop.node ∉ starts := by
  intro hstart
  rcases h.roots hop.node hstart with hwait | ⟨q, hq, hlast, hlen⟩
  · have hsorted := h.sorted
    rw [seen, List.pairwise_append] at hsorted
    have hle := hsorted.2.2 _ hp _ hwait
    simp at hle
  · have hsame : q = p.push hop :=
      List.inj_on_of_nodup_map h.claims.once hq hp (by simpa using hlast)
    rw [hsame] at hlen
    simp at hlen

lemma Guarded.upTo_eq_of_node (h : x.Guarded c) (hu : c.uniqueness = .once .node .global)
    (hp : p ∈ x.visited) (hq : q ∈ x.visited) {i j : ℕ} {node : NodeId}
    (hi : p.nodes[i]? = some node) (hj : q.nodes[j]? = some node) :
    i = j ∧ p.upTo i = q.upTo j := by
  refine h.upTo_eq_of_global hu hp hq (n := node.val) ?_ ?_
  · rw [Uniqueness.Item.along, List.getElem?_map, hi, Option.map_some]
  · rw [Uniqueness.Item.along, List.getElem?_map, hj, Option.map_some]

lemma Layered.spanningForest (h : x.Layered g c starts) (hx : x.Guarded c)
    (hu : c.uniqueness = .once .node .global) : SpanningForest starts x.visited where
  start := fun p hp => (h.walk p (mem_seen_of_visited hp)).start
  ends := h.claims.once
  simple := fun p hp => by
    rw [List.nodup_iff_getElem?_ne_getElem?]
    intro i j hij hj heq
    have hnode := List.getElem?_eq_getElem hj
    have hsame := (hx.upTo_eq_of_node hu hp hp (heq.trans hnode) hnode).1
    omega
  unentered := fun p hp hop hhop => by
    obtain ⟨i, hi⟩ := List.mem_iff_getElem?.mp hhop
    have hpush : p.upTo (i + 1) = (p.upTo i).push hop := by
      simp [Path.upTo, Path.push, List.take_add_one, hi]
    exact h.not_mem_starts (hpush ▸ hx.grown.upTo_mem hp (i + 1))
  entry := fun p hp q hq i j hop hop' hi hj hnode => by
    have hpi : p.nodes[i + 1]? = some hop.node := by simp [Path.nodes, hi]
    have hqj : q.nodes[j + 1]? = some hop.node := by simp [Path.nodes, hj, hnode]
    obtain ⟨hij, hsame⟩ := hx.upTo_eq_of_node hu hp hq hpi hqj
    obtain rfl := Nat.succ_injective hij
    exact Path.entry_eq_of_upTo_eq hsame hi hj
  agree := fun p hp q hq i j node hi hj => hx.upTo_eq_of_node hu hp hq hi hj
  sorted := by
    have hsorted := h.sorted
    rw [seen, List.pairwise_append] at hsorted
    exact hsorted.1

end Search

lemma reduceOption_rows {α : Type} (optional : Bool) (items : List α) :
    (rows optional items).reduceOption = items := by
  unfold rows
  split
  · next h => simp_all
  · simp [List.reduceOption]

lemma exists_traverse_of_spanningTree {fuel : ℕ} {g : Graph} {starts : List NodeId} {c : Config}
    {found : List (Option Path)} (h : spanningTree fuel g starts c = some (.ok found)) :
    ∃ out, traverse fuel g starts c.nodeOnce = some (.ok out) ∧
      found = rows c.optional out.paths := by
  obtain ⟨r, hr, hfound⟩ := Option.map_eq_some_iff.mp h
  rcases r with e | out
  · cases hfound
  · cases hfound
    exact ⟨out, traverse_of_traverseOnce hr, rfl⟩

/-- **Spanning forest**: the rows of a spanning tree that are not empty form a forest rooted at the
starts, whatever policy and order the caller asks for and whatever limits the traversal. -/
theorem spanningTree_spans_forest {fuel : ℕ} {g : Graph} {starts : List NodeId} {c : Config}
    {found : List (Option Path)} (h : spanningTree fuel g starts c = some (.ok found)) :
    SpanningForest starts found.reduceOption := by
  obtain ⟨out, hout, rfl⟩ := exists_traverse_of_spanningTree h
  obtain ⟨z, hrun, rfl, -⟩ := exists_search_of_traverse hout
  rw [reduceOption_rows]
  have hvisited := Search.visited_of_run (P := SpanningForest starts)
    (fun x p rest hw (hx : x.Layered g c.nodeOnce starts ∧ x.Guarded c.nodeOnce) =>
      ⟨hx.1.advance rfl hw, hx.2.advance hw⟩)
    (fun x hx => hx.1.spanningForest hx.2 rfl) hrun
    ⟨Search.layered_init rfl, Search.guarded_init⟩
  exact hvisited.sublist List.filter_sublist

/-- Four nodes in a square, joined from one corner to the opposite one both ways round. -/
def Graph.square : Graph := empty.after
  [.addNode [] [], .addNode [] [], .addNode [] [], .addNode [] [], .addRelationship ⟨0⟩ ⟨1⟩ "R",
    .addRelationship ⟨0⟩ ⟨2⟩ "R", .addRelationship ⟨1⟩ ⟨3⟩ "R", .addRelationship ⟨2⟩ ⟨3⟩ "R"]

/-- From one corner of a square, the opposite corner is reached one way round only. -/
theorem spanningTree_spans_forest_square :
    let c : Config := { uniqueness := .unrestricted, order := .depthFirst }
    ∃ found, spanningTree 20 .square [⟨0⟩] c = some (.ok found) ∧ found.length = 4 ∧
      SpanningForest [⟨0⟩] found.reduceOption := by
  intro c
  have hrun : spanningTree 20 .square [⟨0⟩] c = some (.ok
      [some ⟨⟨0⟩, []⟩, some ⟨⟨0⟩, [⟨⟨0⟩, ⟨1⟩⟩]⟩, some ⟨⟨0⟩, [⟨⟨1⟩, ⟨2⟩⟩]⟩,
        some ⟨⟨0⟩, [⟨⟨0⟩, ⟨1⟩⟩, ⟨⟨2⟩, ⟨3⟩⟩]⟩]) := by
    decide +kernel
  exact ⟨_, hrun, rfl, spanningTree_spans_forest hrun⟩

end GraphWalk
