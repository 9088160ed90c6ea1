import GraphWalk.Proofs.Traversal.SpanningForest

/-!
The procedures that reach every node once agree with each other.

They run one traversal, which ends no two paths at one node. So the nodes are the ends of the tree's
paths in their order, and the subgraph is what these nodes span. The traversal has an order and a
policy of its own, and its policy does not look back, so what the caller says of order, policy and
window is of no account.
-/

namespace GraphWalk

open Traversal

/-! ### The window plays no part -/

namespace Search

variable {g : Graph} {c : Config} {x : Search} {p : Path} {rest : List Path} {w : ℕ}

/-- The same search, looking back as many steps as given. -/
def lookingBack (x : Search) (w : ℕ) : Search :=
  { x with tracker := { x.tracker with window := w } }

lemma accept_lookingBack (h : x.Claims) (p : Path) : (x.lookingBack w).accept p =
    ((x.accept p).1, { (x.accept p).2 with window := w }) := by
  have hmark : (x.lookingBack w).accept p =
      { x.tracker with window := w }.mark ⟨0, p.last.val⟩ := by
    rw [accept, Tracker.accept, lookingBack, h.policy]
    rfl
  rw [hmark, h.accept_eq]
  rfl

lemma advance_lookingBack (h : x.Claims) :
    (x.lookingBack w).advance g c p rest = (x.advance g c p rest).lookingBack w := by
  have hacc := accept_lookingBack (w := w) h p
  have hacc' : { x.lookingBack w with waiting := rest }.accept p =
      ((x.accept p).1, { (x.accept p).2 with window := w }) := hacc
  simp only [advance, enter, refuse, hacc, hacc']
  split <;> rfl

/-- What a step leads to when it looks back as many steps as given. -/
def Progress.lookingBack (w : ℕ) : Progress → Progress
  | .running y => .running (y.lookingBack w)
  | .finished y => .finished (y.lookingBack w)
  | .cancelled visited => .cancelled visited

lemma step_lookingBack (h : x.Claims) :
    (x.lookingBack w).step g c = (x.step g c).lookingBack w := by
  unfold step
  rcases hw : x.waiting with _ | ⟨p, rest⟩
  · have hw' : (x.lookingBack w).waiting = [] := hw
    rw [hw']
    rfl
  · have hw' : (x.lookingBack w).waiting = p :: rest := hw
    have hqueries : (x.lookingBack w).queries = x.queries := rfl
    have hfound : ∀ y : Search, (y.lookingBack w).found g c = y.found g c := fun _ => rfl
    simp only [hw', hqueries, hfound, advance_lookingBack h]
    split_ifs <;> rfl

lemma run_lookingBack (h : x.Claims) (fuel : ℕ) :
    run g c fuel (x.lookingBack w) = (run g c fuel x).map (·.map (·.lookingBack w)) := by
  induction fuel generalizing x with
  | zero => rfl
  | succ fuel ih =>
    rw [run_succ, run_succ, step_lookingBack h]
    rcases hstep : x.step g c with y | y | visited
    · obtain ⟨p, rest, -, rfl⟩ := step_eq_running hstep
      exact ih (h.advance p rest)
    · rfl
    · rfl

lemma run_recentWindow (fuel : ℕ) (x : Search) :
    run g { c with recentWindow := w } fuel x = run g c fuel x := by
  induction fuel generalizing x with
  | zero => rfl
  | succ fuel ih =>
    have hstep : x.step g { c with recentWindow := w } = x.step g c := rfl
    rw [run_succ, run_succ, hstep]
    rcases x.step g c with y | y | visited
    · exact ih y
    · rfl
    · rfl

end Search

lemma traverse_recentWindow {fuel w : ℕ} {g : Graph} {starts : List NodeId} {c : Config}
    (hu : c.uniqueness = .once .node .global) :
    traverse fuel g starts { c with recentWindow := w } = traverse fuel g starts c := by
  rcases hcheck : check g starts c with e | ⟨⟩
  · have hcheck' : check g starts { c with recentWindow := w } = .error e := hcheck
    rw [traverse, traverse, hcheck, hcheck']
  · have hcheck' : check g starts { c with recentWindow := w } = .ok () := hcheck
    have hinit : Search.init { c with recentWindow := w } starts =
        (Search.init c starts).lookingBack (max 1 w) := rfl
    rw [traverse_eq_search hcheck, traverse_eq_search hcheck', hinit, Search.run_recentWindow,
      Search.run_lookingBack (Search.claims_init hu), Option.map_map]
    congr 1
    funext r
    exact Except.map_map_eq _ _ r

/-! ### One traversal -/

variable {fuel : ℕ} {g : Graph} {starts : List NodeId} {c : Config} {p : Procedure} {out : Output}

lemma nodup_last_of_traverse (hu : c.uniqueness = .once .node .global)
    (h : traverse fuel g starts c = some (.ok out)) : (out.paths.map Path.last).Nodup := by
  obtain ⟨z, hrun, rfl, -⟩ := exists_search_of_traverse h
  have honce := Search.visited_of_run (P := fun ps => (ps.map Path.last).Nodup)
    (fun x p rest _ (hx : x.Claims) => hx.advance p rest) (fun _ hx => hx.once) hrun
    (Search.claims_init hu)
  exact honce.sublist (List.filter_sublist.map _)

lemma reached_of_traverse (hu : c.uniqueness = .once .node .global)
    (h : traverse fuel g starts c = some (.ok out)) : out.reached = out.paths.map Path.last := by
  refine distinctBy_eq_self ?_ fun _ _ => Std.TreeSet.not_mem_emptyc
  rw [List.map_id]
  exact nodup_last_of_traverse hu h

lemma traverse_ne_invalidMinLevel {q : Procedure} {level : ℤ} :
    traverse fuel g starts c ≠ some (.error (.invalidMinLevel q level)) := by
  intro h
  rcases hcheck : check g starts c with e | ⟨⟩
  · rw [traverse, hcheck, Option.some.injEq, Except.error.injEq] at h
    subst h
    unfold check at hcheck
    split_ifs at hcheck
    · cases hcheck
    · split at hcheck <;> cases hcheck
  · rw [traverse_eq_search hcheck, Option.map_eq_some_iff] at h
    obtain ⟨e | z, hrun, hr⟩ := h
    · obtain ⟨visited, rfl⟩ := Search.exists_cancelled_of_run hrun
      cases hr
    · cases hr

/-! ### The procedures -/

/-- The error as another procedure words it. -/
def WalkError.reportedBy (p : Procedure) : WalkError → WalkError
  | .invalidMinLevel _ level => .invalidMinLevel p level
  | e => e

/-- The ends of the paths in rows. -/
def rowEnds (trees : List (Option Path)) : List NodeId := trees.reduceOption.map Path.last

/-- How the procedures that reach every node once answer under the same settings. -/
structure Agreement (fuel : ℕ) (g : Graph) (starts : List NodeId) (c : Config) : Prop where
  /-- A least level above one is refused, whatever else may be wrong, and no other level. -/
  level : ∀ p : Procedure, p.isSubgraph = true → ∀ q level,
    p.answer fuel g starts c = some (.error (.invalidMinLevel q level)) ↔
      1 < c.minLevel ∧ q = p ∧ level = (min c.minLevel (Word.signedLimit - 1) : ℕ)
  nodes : subgraphNodes fuel g starts c = (spanningTree fuel g starts c).map fun r =>
    (r.mapError (.reportedBy (.shaped .nodes))).map fun trees => trees.map (·.map Path.last)
  subgraph : subgraphAll fuel g starts c = (spanningTree fuel g starts c).map fun r =>
    (r.mapError (.reportedBy (.shaped .subgraph))).map fun trees =>
      if rowEnds trees = [] then trees.map fun _ => none
      else [some ⟨rowEnds trees, cover g c.relationshipFilter (rowEnds trees)⟩]
  distinct : ∀ p out, traverseOnce p fuel g starts c = some (.ok out) →
    out.reached = out.paths.map Path.last
  settings : ∀ p : Procedure, p.isSubgraph = true → ∀ u w o,
    p.answer fuel g starts { c with uniqueness := u, recentWindow := w, order := o } =
      p.answer fuel g starts c

lemma rows_map {α β : Type} (optional : Bool) (f : α → β) (items : List α) :
    rows optional (items.map f) = (rows optional items).map (Option.map f) := by
  unfold rows
  rw [List.isEmpty_map]
  split_ifs
  · rfl
  · rw [List.map_map, List.map_map]
    rfl

lemma rows_nil_eq_map {α β : Type} {items : List α} (h : items = []) (optional : Bool) :
    rows optional ([] : List β) = (rows optional items).map fun _ => none := by
  subst h
  cases optional <;> rfl

lemma rowEnds_rows (optional : Bool) (paths : List Path) :
    rowEnds (rows optional paths) = paths.map Path.last := by
  rw [rowEnds, reduceOption_rows]

lemma map_traverseOnce_eq {α : Type} {q : Procedure} (hq : q.isSubgraph = true) {f : Output → α}
    {f' : List (Option Path) → α}
    (hf : ∀ out, traverse fuel g starts c.nodeOnce = some (.ok out) →
      f out = f' (rows c.optional out.paths)) :
    ((traverseOnce q fuel g starts c).map fun r => r.map f) =
      (spanningTree fuel g starts c).map fun r => (r.mapError (.reportedBy q)).map f' := by
  rw [spanningTree]
  rcases Nat.lt_or_ge 1 c.minLevel with hlt | hle
  · rw [traverseOnce_of_lt hq hlt, traverseOnce_of_lt rfl hlt]
    rfl
  · rw [traverseOnce_of_le hle, traverseOnce_of_le hle, Option.map_map]
    rcases hrun : traverse fuel g starts c.nodeOnce with _ | e | out
    · rfl
    · have hsame : e.reportedBy q = e := by
        cases e with
        | invalidMinLevel p level => exact absurd hrun traverse_ne_invalidMinLevel
        | _ => rfl
      simp only [Option.map_some, Function.comp_apply, Except.map, Except.mapError, hsame]
    · simp only [Option.map_some, Function.comp_apply, Except.map, Except.mapError, hf out hrun]

lemma answer_eq_invalidMinLevel_iff (hp : p.isSubgraph = true) {q : Procedure} {level : ℤ} :
    p.answer fuel g starts c = some (.error (.invalidMinLevel q level)) ↔
      1 < c.minLevel ∧ q = p ∧ level = (min c.minLevel (Word.signedLimit - 1) : ℕ) := by
  rcases Nat.lt_or_ge 1 c.minLevel with hlt | hle
  · rw [answer_of_lt hp hlt]
    simp only [hlt, true_and, Option.some.injEq, Except.error.injEq, WalkError.invalidMinLevel.injEq]
    exact and_congr eq_comm eq_comm
  · refine iff_of_false ?_ fun h => absurd h.1 (Nat.not_lt.mpr hle)
    rw [answer_of_le fun _ => hle, Option.map_eq_some_iff]
    rintro ⟨e | out, hrun, hr⟩
    · cases hr
      exact traverse_ne_invalidMinLevel hrun
    · cases hr

lemma answer_settings (hp : p.isSubgraph = true) (u : Uniqueness) (w : ℕ) (o : Order) :
    p.answer fuel g starts { c with uniqueness := u, recentWindow := w, order := o } =
      p.answer fuel g starts c := by
  let c' : Config := { c with uniqueness := u, recentWindow := w, order := o }
  change p.answer fuel g starts c' = _
  rcases Nat.lt_or_ge 1 c.minLevel with hlt | hle
  · have hlt' : 1 < c'.minLevel := hlt
    rw [answer_of_lt hp hlt, answer_of_lt hp hlt']
  · have hle' : c'.minLevel ≤ 1 := hle
    have hshapes : p.shapes g c' = p.shapes g c := rfl
    have hsame : traverse fuel g starts c'.nodeOnce = traverse fuel g starts c.nodeOnce :=
      traverse_recentWindow (c := c.nodeOnce) rfl
    rw [answer_of_le fun _ => hle, answer_of_le fun _ => hle', Procedure.settings,
      Procedure.settings, if_pos hp, if_pos hp, hsame, hshapes]

lemma exists_isSome_answer (hp : p.isSubgraph = true) (g : Graph) (starts : List NodeId)
    (c : Config) : ∃ fuel, (p.answer fuel g starts c).isSome := by
  rcases Nat.lt_or_ge 1 c.minLevel with hlt | hle
  · refine ⟨0, ?_⟩
    rw [answer_of_lt hp hlt]
    rfl
  · obtain ⟨fuel, hfuel⟩ := exists_isSome_traverse_of_once (g := g) (c := c.nodeOnce) rfl starts
    refine ⟨fuel, ?_⟩
    rw [answer_of_le fun _ => hle, Procedure.settings, if_pos hp, Option.isSome_map]
    exact hfuel

/-- **Agreement**: the procedures that reach every node once all come to an end and agree: they fail
together and for the same reason, or the nodes and the subgraph are those of the tree; and their
answers do not depend on the order, the policy and the window that are asked for. -/
theorem node_once_procedures_agree (g : Graph) (starts : List NodeId) (c : Config) :
    (∀ p : Procedure, p.isSubgraph = true → ∃ fuel, (p.answer fuel g starts c).isSome) ∧
      ∀ fuel, Agreement fuel g starts c := by
  refine ⟨fun p hp => exists_isSome_answer hp g starts c, fun fuel => ?_⟩
  have hreached : ∀ out, traverse fuel g starts c.nodeOnce = some (.ok out) →
      out.reached = out.paths.map Path.last := fun out => reached_of_traverse rfl
  refine ⟨fun p hp q level => answer_eq_invalidMinLevel_iff hp, ?_, ?_, ?_, ?_⟩
  · exact map_traverseOnce_eq rfl fun out hout => by rw [hreached out hout, rows_map]
  · exact map_traverseOnce_eq rfl fun out hout => by
      rw [hreached out hout, rows_spanned, rowEnds_rows]
      split_ifs with h
      · exact rows_nil_eq_map (List.map_eq_nil_iff.mp h) c.optional
      · rfl
  · exact fun p out hout => hreached out (traverse_of_traverseOnce hout)
  · exact fun p hp u w o => answer_settings hp u w o

/-- From one of two nodes joined both ways, with settings that would report more paths: the other
node is reached once, and the relationship that leads back is in the subgraph. -/
theorem node_once_procedures_agree_twoWay :
    let c : Config := { uniqueness := .unrestricted, order := .depthFirst, maxLevel := some 2 }
    spanningTree 12 .twoWay [⟨0⟩] c =
        some (.ok [some ⟨⟨0⟩, []⟩, some ⟨⟨0⟩, [⟨⟨0⟩, ⟨1⟩⟩]⟩]) ∧
      subgraphAll 12 .twoWay [⟨0⟩] c = some (.ok [some ⟨[⟨0⟩, ⟨1⟩], [⟨0⟩, ⟨1⟩]⟩]) ∧
      Agreement 12 .twoWay [⟨0⟩] c := by
  intro c
  have htree : spanningTree 12 .twoWay [⟨0⟩] c =
      some (.ok [some ⟨⟨0⟩, []⟩, some ⟨⟨0⟩, [⟨⟨0⟩, ⟨1⟩⟩]⟩]) := by decide +kernel
  have hagree := (node_once_procedures_agree .twoWay [⟨0⟩] c).2 12
  refine ⟨htree, ?_, hagree⟩
  rw [hagree.subgraph, htree]
  decide +kernel

end GraphWalk
