import GraphWalk.Proofs.Traversal.SpanningForest

/-!
What becomes of the starts when every node is visited once.

A start is not filtered on its own account, so it is a result if the traversal comes to it as a
start. Breadth first it always does. Depth first it may come to it from another start before its
turn; then the filters decide, and the start is not visited again.
-/

namespace GraphWalk

namespace Config

variable {c : Config} {g : Graph} {node : NodeId} {p : Path}

/-- The filters turn the node down where they are asked about it. -/
def TurnsDown (c : Config) (g : Graph) (node : NodeId) : Prop :=
  c.denies node (g.labels node) = true ∨ c.allows node (g.labels node) = false

/-- A start by itself is a result: starts are not filtered, no level is to be reached and no ends
are named. -/
structure ExemptsStarts (c : Config) : Prop where
  filter : c.filterStartNode = false
  minLevel : c.minLevel = 0
  ends : c.endNodeMode = false

lemma isTerminator_of_endNodeMode (h : c.endNodeMode = false) (labels : List String) :
    c.isTerminator node labels = false := by
  simp only [endNodeMode, LabelFilter.hasEndRules, NodeFilter.hasEndNodes, Bool.or_eq_false_iff,
    Bool.not_eq_false', List.isEmpty_iff, Option.isSome_eq_false_iff, Option.isNone_iff_eq_none] at h
  simp [isTerminator, LabelFilter.matchesRule, LabelFilter.rule, NodeFilter.isTerminator, h]

lemma isEndNode_of_endNodeMode (h : c.endNodeMode = false) (labels : List String) :
    c.isEndNode node labels = false := by
  simp only [endNodeMode, LabelFilter.hasEndRules, NodeFilter.hasEndNodes, Bool.or_eq_false_iff,
    Bool.not_eq_false', List.isEmpty_iff, Option.isSome_eq_false_iff, Option.isNone_iff_eq_none] at h
  simp [isEndNode, LabelFilter.matchesRule, LabelFilter.rule, NodeFilter.isEndNode, h]

lemma ExemptsStarts.includes_single (h : c.ExemptsStarts) :
    (c.judge g (.single node)).includes = true := by
  rw [judge, includes_evaluate_iff, if_pos ⟨rfl, h.filter⟩]
  exact ⟨h.minLevel, h.ends⟩

lemma ExemptsStarts.includes_iff (h : c.ExemptsStarts) (hp : 0 < p.length) :
    (c.judge g p).includes = true ↔ ¬ c.TurnsDown g p.last := by
  have hasked : ¬ c.Bypasses p.length := fun hb => absurd hb.1 (Nat.ne_of_gt hp)
  rw [judge, includes_evaluate_iff, if_neg hasked, isTerminator_of_endNodeMode h.ends,
    isEndNode_of_endNodeMode h.ends, h.minLevel, h.ends, TurnsDown]
  simp

end Config

namespace Search

variable {g : Graph} {c : Config} {starts : List NodeId} {x : Search} {p : Path} {rest : List Path}

/-- Every start waits for its turn, or its node was visited. -/
def Rooted (starts : List NodeId) (x : Search) : Prop :=
  ∀ node ∈ starts, .single node ∈ x.waiting ∨ node ∈ x.visited.map Path.last

lemma rooted_init : (init c starts).Rooted starts := fun _ hnode => .inl (List.mem_map_of_mem hnode)

lemma Rooted.advance (h : x.Rooted starts) (hx : x.Claims) (hw : x.waiting = p :: rest) :
    (x.advance g c p rest).Rooted starts :=
  fun node hnode => hx.secures_advance hw (q := .single node) (h node hnode)

/-- A path visited that has a hop ends elsewhere than it starts: its start was visited before. -/
lemma Claims.start_ne_last (h : x.Claims) (hx : x.Grown) (hp : p ∈ x.visited)
    (hlen : 0 < p.length) : p.start ≠ p.last := by
  intro heq
  have hroot : p.upTo 0 = .single p.start := by simp [Path.upTo, Path.single]
  have hvisited : .single p.start ∈ x.visited := hroot ▸ hx.upTo_mem hp 0
  have hsame : .single p.start = p := List.inj_on_of_nodup_map h.once hvisited hp heq
  rw [← hsame] at hlen
  exact absurd hlen (Nat.lt_irrefl 0)

/-- What holds before every turn of a search that visits nodes once, as far as its starts go. -/
structure Serves (g : Graph) (c : Config) (starts : List NodeId) (x : Search) : Prop where
  claims : x.Claims
  grown : x.Grown
  rooted : x.Rooted starts
  walk : ∀ p ∈ x.seen, c.Walk g starts p
  layered : c.order = .breadthFirst → x.Layered g c starts

lemma serves_init (hu : c.uniqueness = .once .node .global) :
    (init c starts).Serves g c starts where
  claims := claims_init hu
  grown := grown_init starts
  rooted := rooted_init
  walk := walk_init
  layered := fun _ => layered_init hu

namespace Serves

lemma advance (h : x.Serves g c starts) (hw : x.waiting = p :: rest) :
    (x.advance g c p rest).Serves g c starts where
  claims := h.claims.advance p rest
  grown := h.grown.advance hw
  rooted := h.rooted.advance h.claims hw
  walk := walk_advance h.walk hw
  layered := fun ho => (h.layered ho).advance ho hw

lemma exists_visited (h : x.Serves g c starts) (hw : x.waiting = []) {node : NodeId}
    (hnode : node ∈ starts) : ∃ p ∈ x.visited, p.last = node := by
  rcases h.rooted node hnode with hwait | hvisited
  · rw [hw] at hwait
    exact absurd hwait List.not_mem_nil
  · exact List.mem_map.mp hvisited

lemma unreported_iff (h : x.Serves g c starts) (hc : c.ExemptsStarts) (hw : x.waiting = [])
    {node : NodeId} (hnode : node ∈ starts) : (∀ p ∈ x.found g c, p.last ≠ node) ↔
      c.TurnsDown g node ∧
        ∃ p ∈ x.visited, p.last = node ∧ p.start ∈ starts ∧ p.start ≠ node := by
  constructor
  · intro hmiss
    obtain ⟨p, hp, rfl⟩ := h.exists_visited hw hnode
    have hexc : ¬ (c.judge g p).includes = true := fun hinc =>
      hmiss p (List.mem_filter.mpr ⟨hp, hinc⟩) rfl
    rcases p.eq_single_or_push with ⟨start, rfl⟩ | ⟨q, hop, rfl⟩
    · exact absurd hc.includes_single hexc
    · have hlen : 0 < (q.push hop).length := by simp
      rw [hc.includes_iff hlen, not_not] at hexc
      exact ⟨hexc, _, hp, rfl, (h.walk _ (mem_seen_of_visited hp)).start,
        h.claims.start_ne_last h.grown hp hlen⟩
  · rintro ⟨hdown, p, hp, rfl, -, hne⟩ q hq hlast
    obtain ⟨hq, hinc⟩ := List.mem_filter.mp hq
    obtain rfl : q = p := List.inj_on_of_nodup_map h.claims.once hq hp hlast
    rcases q.eq_single_or_push with ⟨start, rfl⟩ | ⟨q, hop, rfl⟩
    · exact hne rfl
    · exact (hc.includes_iff (by simp)).mp hinc hdown

lemma single_mem_visited (h : x.Serves g c starts) (ho : c.order = .breadthFirst)
    (hw : x.waiting = []) {node : NodeId} (hnode : node ∈ starts) : .single node ∈ x.visited := by
  obtain ⟨p, hp, rfl⟩ := h.exists_visited hw hnode
  rcases p.eq_single_or_push with ⟨start, rfl⟩ | ⟨q, hop, rfl⟩
  · exact hp
  · rw [Path.last_push] at hnode
    exact absurd hnode ((h.layered ho).not_mem_starts hp)

end Serves

end Search

open Traversal

/-- What a traversal that visits `visits` and reports `paths` makes of its starts. -/
structure ReportsStarts (g : Graph) (c : Config) (starts : List NodeId) (visits paths : List Path) :
    Prop where
  /-- A start is left out if and only if the filters turn it down and it is entered from another
  start before its turn. -/
  unreported_iff : ∀ node ∈ starts, (∀ p ∈ paths, p.last ≠ node) ↔
    c.TurnsDown g node ∧ ∃ p ∈ visits, p.last = node ∧ p.start ∈ starts ∧ p.start ≠ node
  breadthFirst : c.order = .breadthFirst → ∀ node ∈ starts, .single node ∈ paths

/-- **Starts**: a traversal with every node once that nothing stops comes to an end, and then it has
reported every start, but for those that it entered from another start first, depth first, and
that the filters turn down. -/
theorem Traversal.starts_are_reported {g : Graph} {starts : List NodeId} {c : Config}
    (hstarts : ∀ node ∈ starts, (g.node? node).isSome) (hsample : c.sample ≠ some 0)
    (hc : c.Exhaustive) (hu : c.uniqueness = .once .node .global) (hexempt : c.ExemptsStarts) :
    (∃ fuel, (traverse fuel g starts c).isSome) ∧
      ∀ fuel r, traverse fuel g starts c = some r → ∃ out, r = .ok out ∧
        ReportsStarts g c starts (visits fuel g starts c) out.paths := by
  have hcheck := check_eq_ok hsample hstarts
  constructor
  · exact exists_isSome_traverse_of_once hu starts
  · intro fuel r h
    obtain ⟨z, rfl, hvisits, hz, hw⟩ := exists_of_traverse_exhaustive hcheck hc
      (fun x p rest hw hx => Search.Serves.advance hx hw) (Search.serves_init hu) h
    refine ⟨_, rfl, fun node hnode => ?_, fun ho node hnode => ?_⟩
    · rw [hvisits]
      exact hz.unreported_iff hexempt hw hnode
    · exact List.mem_filter.mpr ⟨hz.single_mem_visited ho hw hnode, hexempt.includes_single⟩

/-- Settings that turn down one of two nodes. -/
def Config.withoutB (order : Order) : Config :=
  { labelFilter := { deny := [["B"]] }, order := order }

lemma Config.exemptsStarts_withoutB (order : Order) : (withoutB order).ExemptsStarts :=
  ⟨rfl, rfl, rfl⟩

lemma Graph.isSome_node?_twoWay :
    ∀ node ∈ [(⟨0⟩ : NodeId), ⟨1⟩], (twoWay.node? node).isSome := by
  decide +kernel

/-- From two nodes joined both ways, breadth first: both are reported, though the filters turn one
of them down. -/
theorem Traversal.starts_are_reported_twoWay :
    let c := Config.withoutB .breadthFirst
    c.TurnsDown .twoWay ⟨1⟩ ∧ ∃ out, traverse 12 .twoWay [⟨0⟩, ⟨1⟩] c = some (.ok out) ∧
      out.paths.length = 2 ∧
      ReportsStarts .twoWay c [⟨0⟩, ⟨1⟩] (visits 12 .twoWay [⟨0⟩, ⟨1⟩] c) out.paths := by
  intro c
  have hrun : traverse 12 .twoWay [⟨0⟩, ⟨1⟩] c =
      some (.ok ⟨[⟨⟨0⟩, []⟩, ⟨⟨1⟩, []⟩], ⟨2, 2, 0, 0, false⟩⟩) := by decide +kernel
  have hdown : c.denies ⟨1⟩ (Graph.twoWay.labels ⟨1⟩) = true := by decide +kernel
  have hsample : c.sample ≠ some 0 := by decide
  obtain ⟨out, hout, hreports⟩ := (starts_are_reported Graph.isSome_node?_twoWay hsample
    ⟨rfl, rfl⟩ rfl (Config.exemptsStarts_withoutB .breadthFirst)).2 12 _ hrun
  cases hout
  exact ⟨.inl hdown, _, hrun, rfl, hreports⟩

/-- Depth first a start can be missing from the results: it is entered from the start before it and
turned down there. -/
theorem Traversal.start_is_left_out :
    let c := Config.withoutB .depthFirst
    (∀ node ∈ [(⟨0⟩ : NodeId), ⟨1⟩], (Graph.twoWay.node? node).isSome) ∧ c.Exhaustive ∧
      c.uniqueness = .once .node .global ∧ c.ExemptsStarts ∧
      ∃ out, traverse 12 .twoWay [⟨0⟩, ⟨1⟩] c = some (.ok out) ∧ ∀ p ∈ out.paths, p.last ≠ ⟨1⟩ := by
  intro c
  have hrun : traverse 12 .twoWay [⟨0⟩, ⟨1⟩] c =
      some (.ok ⟨[⟨⟨0⟩, []⟩], ⟨2, 1, 1, 1, false⟩⟩) := by decide +kernel
  exact ⟨Graph.isSome_node?_twoWay, ⟨rfl, rfl⟩, rfl, Config.exemptsStarts_withoutB .depthFirst, _,
    hrun, by decide⟩

end GraphWalk
