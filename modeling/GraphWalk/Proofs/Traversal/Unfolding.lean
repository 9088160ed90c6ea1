import GraphWalk.Proofs.Traversal.Search
import Mathlib.Data.List.Forall2

/-!
The traversal is the search that carries whole paths.

The traversal keeps a branch as a number: its path is found by following parents in the forest.
`Forest.Is` says which path that is. Growing the forest changes no path, so each step of the
traversal is the step of the search on the paths of the branches that wait.
-/

namespace GraphWalk

open Traversal

/-! ### Branches as paths -/

namespace Forest

variable {f : Forest} {i j : ℕ} {b : Branch} {bs : List Branch} {p : Path}

/-- Branch `i` of the forest is the path. -/
inductive Is (f : Forest) : ℕ → Path → Prop where
  | root {i : ℕ} {node : NodeId} (hb : f.branch? i = some (.root node)) : Is f i (.single node)
  | push {i j : ℕ} {p : Path} {hop : Hop} (h : Is f j p) (hlt : j < i)
    (hb : f.branch? i = some ⟨hop.node, p.length + 1, some ⟨j, hop.rel⟩⟩) : Is f i (p.push hop)

/-- A branch outside the forest that continues one of its branches, or none. -/
inductive Grows (f : Forest) : Branch → Path → Prop where
  | root (node : NodeId) : Grows f (.root node) (.single node)
  | push {j : ℕ} {p : Path} (h : f.Is j p) (hop : Hop) :
    Grows f ⟨hop.node, p.length + 1, some ⟨j, hop.rel⟩⟩ (p.push hop)

lemma lt_size (h : f.branch? i = some b) : i < f.size := (Array.getElem?_eq_some_iff.mp h).1

lemma branch?_eq (f : Forest) (i : ℕ) : f.branch? i = f.branches.toList[i]? := by
  rw [branch?, Array.getElem?_toList]

@[simp] lemma toList_append (f : Forest) (bs : List Branch) :
    (f.append bs).branches.toList = f.branches.toList ++ bs := Array.toList_appendList

lemma branch?_append (h : f.branch? i = some b) (bs : List Branch) :
    (f.append bs).branch? i = some b := by
  have hi : i < f.branches.toList.length := lt_size h
  rw [branch?_eq, toList_append, List.getElem?_append_left hi, ← branch?_eq, h]

lemma branch?_append_size (k : ℕ) : (f.append bs).branch? (f.size + k) = bs[k]? := by
  have hk : f.branches.toList.length ≤ f.size + k := Nat.le_add_right _ _
  rw [branch?_eq, toList_append, List.getElem?_append_right hk]
  simp [size]

lemma Is.lt_size (h : f.Is i p) : i < f.size := by
  cases h with
  | root hb => exact Forest.lt_size hb
  | push _ _ hb => exact Forest.lt_size hb

lemma Is.append (h : f.Is i p) (bs : List Branch) : (f.append bs).Is i p := by
  induction h with
  | root hb => exact .root (branch?_append hb bs)
  | push _ hlt hb ih => exact .push ih hlt (branch?_append hb bs)

lemma Grows.is_append (h : f.Grows b p) (hi : f.size ≤ i)
    (hb : (f.append bs).branch? i = some b) : (f.append bs).Is i p := by
  cases h with
  | root node => exact .root hb
  | push h hop => exact .push (h.append bs) (lt_of_lt_of_le h.lt_size hi) hb

lemma forall₂_is_append {ps : List Path} (h : List.Forall₂ f.Grows bs ps) :
    List.Forall₂ (f.append bs).Is (List.range' f.size bs.length) ps := by
  rw [List.forall₂_iff_get] at h ⊢
  obtain ⟨hlen, h⟩ := h
  refine ⟨by rw [List.length_range', hlen], fun k hk hk' => ?_⟩
  rw [List.length_range'] at hk
  refine (h k hk hk').is_append (by simp) ?_
  have hget : (List.range' f.size bs.length).get ⟨k, by simpa using hk⟩ = f.size + k := by simp
  rw [hget, branch?_append_size, List.getElem?_eq_getElem hk]
  rfl

lemma forall₂_grows_root (f : Forest) (starts : List NodeId) :
    List.Forall₂ f.Grows (starts.map .root) (starts.map .single) := by
  rw [List.forall₂_map_left_iff, List.forall₂_map_right_iff, List.forall₂_same]
  exact fun node _ => .root node

lemma Is.lineage (h : f.Is i p) : f.lineage i = p.lineage := by
  induction h with
  | root hb =>
    rw [Forest.lineage, hb]
    rfl
  | push _ hlt hb ih =>
    rw [Forest.lineage, hb]
    simp [hlt, ih, Branch.step]

lemma Is.pathThrough (h : f.Is i p) (hops : List Hop) :
    f.pathThrough i hops = some ⟨p.start, p.hops ++ hops⟩ := by
  induction h generalizing hops with
  | root hb =>
    rw [Forest.pathThrough, hb]
    rfl
  | push _ hlt hb ih =>
    rw [Forest.pathThrough, hb]
    simp [hlt, ih]

lemma Is.path? (h : f.Is i p) : f.path? i = some p := by
  rw [Forest.path?, h.pathThrough, List.append_nil]

/-- What the traversal asks about a branch is what it asks about the path. -/
structure Shows (f : Forest) (b : Branch) (p : Path) : Prop where
  node : b.node = p.last
  depth : b.depth = p.length
  step : b.step = p.step
  lineage : f.lineageBefore b = p.lineage.tail

lemma Is.exists_branch? (h : f.Is i p) : ∃ b, f.branch? i = some b ∧ f.Shows b p := by
  cases h with
  | root hb => exact ⟨_, hb, rfl, rfl, rfl, rfl⟩
  | push h _ hb =>
    refine ⟨_, hb, by simp, by simp, by simp [Branch.step], ?_⟩
    simp [lineageBefore, h.lineage]

end Forest

namespace Traversal

variable {g : Graph} {c : Config} {s t : State} {x y : Search} {p : Path} {rest : List Path}

/-! ### Traversals as searches -/

/-- The state of a traversal is a state of the search. -/
structure State.Unfolds (g : Graph) (c : Config) (s : State) (x : Search) : Prop where
  frontier : List.Forall₂ s.forest.Is s.frontier.toList x.waiting
  tracker : s.tracker = x.tracker
  output : s.output = x.output g c
  queries : s.queries = x.queries

/-- What a step of the traversal leads to is what a step of the search leads to. -/
inductive Matches (g : Graph) (c : Config) : Progress → Search.Progress → Prop where
  | running {s : State} {x : Search} (h : s.Unfolds g c x) : Matches g c (.running s) (.running x)
  | finished {s : State} {x : Search} (h : s.output = x.output g c) :
    Matches g c (.finished s) (.finished x)
  | cancelled (visited : ℕ) : Matches g c (.cancelled visited) (.cancelled visited)

namespace State

lemma toList_schedule (s : State) (order : Order) (bs : List Branch) {ps qs : List Path}
    (hs : List.Forall₂ s.forest.Is s.frontier.toList ps)
    (hbs : List.Forall₂ s.forest.Grows bs qs) :
    List.Forall₂ (s.schedule order bs).forest.Is (s.schedule order bs).frontier.toList
      (order.schedule ps qs) := by
  have hold : List.Forall₂ (s.forest.append bs).Is s.frontier.toList ps :=
    hs.imp fun _ _ h => h.append bs
  have hnew := Forest.forall₂_is_append hbs
  cases order with
  | breadthFirst =>
    simp only [schedule, Frontier.toList_add_breadthFirst]
    exact List.rel_append hold hnew
  | depthFirst =>
    simp only [schedule, Frontier.toList_add_depthFirst]
    exact List.rel_append hnew hold

lemma unfolds_init (g : Graph) (c : Config) (starts : List NodeId) :
    (init c starts).Unfolds g c (.init c starts) where
  frontier := by
    have h := toList_schedule { tracker := .new c.uniqueness c.recentWindow } c.order _ .nil
      (Forest.forall₂_grows_root {} starts)
    rwa [Order.nil_schedule] at h
  tracker := rfl
  output := rfl
  queries := rfl

lemma forall₂_grows {i : ℕ} (hi : s.forest.Is i p) :
    List.Forall₂ s.forest.Grows
      ((c.offered g p.last).map fun r => ⟨r.otherNode p.last, p.length + 1, some ⟨i, r.id⟩⟩)
      (c.children g p) := by
  rw [Config.children, Config.nextHops, List.map_map, List.forall₂_map_left_iff,
    List.forall₂_map_right_iff, List.forall₂_same]
  exact fun r _ => .push hi ⟨r.id, r.otherNode p.last⟩

end State

/-! ### One step -/

namespace State

variable {i : ℕ} {b : Branch}

/-- The state after branch `i`, which is `b`, was admitted and reported as its evaluation says. -/
def enter (s : State) (i : ℕ) (b : Branch) (tracker : Tracker) (e : Evaluation) : State :=
  let s := { s with tracker := tracker }.countVisit b.depth
  if e = .prune then s.countPruned else if e.includes then s.emit i else s

/-- A visit is over when the limit is reached or what is to be continued is scheduled. -/
def proceed (s : State) (g : Graph) (c : Config) (i : ℕ) (b : Branch) (e : Evaluation) : Progress :=
  if e.includes ∧ c.limitReached s.stats.emitted then .finished (s.truncate !s.frontier.isEmpty)
  else if e.expands ∧ c.expandsAt b.depth then .running (s.expand g c i b)
  else .running s

lemma visit_eq (s : State) (g : Graph) (c : Config) (i : ℕ) (b : Branch) : s.visit g c i b =
    let a := s.tracker.accept (s.forest.lineageBefore b) b.step b.depth
    let e := c.evaluate b.node (g.labels b.node) b.depth
    if a.1 then (s.enter i b a.2 e).proceed g c i b e else .running { s with tracker := a.2 } := by
  dsimp only [visit]
  generalize s.tracker.accept (s.forest.lineageBefore b) b.step b.depth = a
  generalize c.evaluate b.node (g.labels b.node) b.depth = e
  obtain ⟨admitted, tracker⟩ := a
  cases e <;> rfl

@[simp] lemma forest_enter (tracker : Tracker) (e : Evaluation) :
    (s.enter i b tracker e).forest = s.forest := by
  cases e <;> rfl

@[simp] lemma frontier_enter (tracker : Tracker) (e : Evaluation) :
    (s.enter i b tracker e).frontier = s.frontier := by
  cases e <;> rfl

@[simp] lemma tracker_enter (tracker : Tracker) (e : Evaluation) :
    (s.enter i b tracker e).tracker = tracker := by
  cases e <;> rfl

@[simp] lemma queries_enter (tracker : Tracker) (e : Evaluation) :
    (s.enter i b tracker e).queries = s.queries := by
  cases e <;> rfl

lemma output_enter (hi : s.forest.Is i p) (hd : b.depth = p.length) (tracker : Tracker)
    (e : Evaluation) : (s.enter i b tracker e).output = s.output.visit p e := by
  cases e <;> simp [enter, output, Output.visit, countVisit, countPruned, emit,
    Evaluation.includes, hi.path?, hd]

lemma visited_of_output (h : s.output = x.output g c) : s.stats.visited = x.visited.length :=
  congrArg (fun out => out.stats.visited) h

lemma emitted_of_output (h : s.output = x.output g c) :
    s.stats.emitted = (x.found g c).length :=
  congrArg (fun out => out.stats.emitted) h

lemma output_truncate (h : s.output = x.output g c) (truncated : Bool) :
    (s.truncate truncated).output = { x with truncated := truncated }.output g c :=
  congrArg (fun out : Output => (⟨out.paths, { out.stats with truncated := truncated }⟩ : Output)) h

namespace Unfolds

lemma refuse (h : s.Unfolds g c x) (p : Path) :
    { s with tracker := (x.accept p).2 }.Unfolds g c (x.refuse p) :=
  ⟨h.frontier, rfl, h.output, h.queries⟩

lemma enter (h : s.Unfolds g c x) (hi : s.forest.Is i p) (hd : b.depth = p.length) :
    (s.enter i b (x.accept p).2 (c.judge g p)).Unfolds g c (x.enter p) where
  frontier := by
    rw [forest_enter, frontier_enter]
    exact h.frontier
  tracker := tracker_enter _ _
  output := by rw [output_enter hi hd, h.output, Search.output_enter]
  queries := by
    rw [queries_enter]
    exact h.queries

lemma expand (h : s.Unfolds g c x) (hi : s.forest.Is i p) (hb : s.forest.Shows b p)
    (hp : c.continues g p = true) : (s.expand g c i b).Unfolds g c (x.expand g c p) where
  frontier := by
    have hgrow := forall₂_grows (g := g) (c := c) hi
    have hsched := toList_schedule s c.order _ h.frontier hgrow
    rw [← hb.node, ← hb.depth] at hsched
    change List.Forall₂ _ _ (c.order.schedule x.waiting (c.successors g p))
    rw [Config.successors, if_pos hp]
    exact hsched
  tracker := h.tracker
  output := h.output
  queries := by
    change s.queries + _ = x.queries + _
    rw [if_pos hp, h.queries]

lemma expand_of_not (h : s.Unfolds g c x) (hp : c.continues g p = false) :
    s.Unfolds g c (x.expand g c p) := by
  have hx : x.expand g c p = x := by simp [Search.expand, Config.successors, hp]
  rwa [hx]

lemma isEmpty_frontier (h : s.Unfolds g c x) : s.frontier.isEmpty = x.waiting.isEmpty := by
  have hlen := h.frontier.length_eq
  rw [Bool.eq_iff_iff, Frontier.isEmpty_iff, List.isEmpty_iff, ← List.length_eq_zero_iff,
    ← List.length_eq_zero_iff, hlen]

lemma proceed (h : s.Unfolds g c x) (hi : s.forest.Is i p) (hb : s.forest.Shows b p)
    (hinc : c.limitReached (x.found g c).length = true → (c.judge g p).includes = true) :
    Matches g c (s.proceed g c i b (c.judge g p))
      (if c.limitReached (x.found g c).length then
        .finished { x.expand g c p with truncated := !x.waiting.isEmpty }
      else .running (x.expand g c p)) := by
  unfold State.proceed
  rw [emitted_of_output h.output, hb.depth]
  by_cases hlim : c.limitReached (x.found g c).length = true
  · rw [if_pos ⟨hinc hlim, hlim⟩, if_pos hlim]
    rw [h.isEmpty_frontier]
    exact .finished (output_truncate h.output _)
  · rw [if_neg fun hl => hlim hl.2, if_neg hlim]
    by_cases hp : c.continues g p = true
    · rw [if_pos (by simpa [Config.continues] using hp)]
      exact .running (h.expand hi hb hp)
    · rw [if_neg (by simpa [Config.continues] using hp)]
      exact .running (h.expand_of_not (by simpa using hp))

lemma visit (h : s.Unfolds g c x) (hi : s.forest.Is i p) (hb : s.forest.Shows b p)
    (hx : c.limitReached (x.found g c).length = false) :
    Matches g c (s.visit g c i b)
      (let y := x.advance g c p x.waiting
       if c.limitReached (y.found g c).length then
         .finished { y with truncated := !x.waiting.isEmpty }
       else .running y) := by
  have hacc : s.tracker.accept (s.forest.lineageBefore b) b.step b.depth = x.accept p := by
    rw [hb.lineage, hb.step, hb.depth, h.tracker]
    rfl
  have hjudge : c.evaluate b.node (g.labels b.node) b.depth = c.judge g p := by
    rw [hb.node, hb.depth]
    rfl
  rw [visit_eq]
  dsimp only
  rw [hacc, hjudge]
  cases ha : (x.accept p).1
  · have hfound : (x.advance g c p x.waiting).found g c = x.found g c := by
      rw [Search.advance_of_refuse ha]
      rfl
    rw [hfound, hx, if_neg Bool.false_ne_true, if_neg Bool.false_ne_true,
      Search.advance_of_refuse ha]
    exact .running (h.refuse p)
  · rw [if_pos rfl, Search.advance_of_accept ha]
    refine (h.enter hi hb.depth).proceed (by simpa using hi) ⟨hb.node, hb.depth, hb.step, ?_⟩ ?_
    · rw [forest_enter]
      exact hb.lineage
    · intro hlim
      -- without a new result the limit would have been reached before
      by_contra hinc
      have hfound : (x.enter p).found g c = x.found g c := by
        simp [Search.found, Search.enter, hinc]
      rw [hfound, hx] at hlim
      cases hlim

/-- A step of the traversal is a step of the search. -/
theorem step (h : s.Unfolds g c x) : Matches g c (s.step g c) (x.step g c) := by
  have hfront := h.frontier
  unfold State.step Search.step
  rcases hw : x.waiting with _ | ⟨p, rest⟩
  · rw [hw, List.forall₂_nil_right_iff, ← Frontier.pop?_eq_none_iff] at hfront
    rw [hfront]
    exact .finished h.output
  · rw [hw] at hfront
    obtain ⟨i, is, hi, his, hlist⟩ := List.forall₂_cons_right_iff.mp hfront
    obtain ⟨⟨j, f⟩, hpop⟩ : ∃ jf, s.frontier.pop? = some jf := by
      rw [← Option.ne_none_iff_exists', ne_eq, Frontier.pop?_eq_none_iff, hlist]
      exact List.cons_ne_nil i is
    obtain ⟨rfl, rfl⟩ := List.cons_eq_cons.mp (hlist.symm.trans (Frontier.toList_eq_of_pop? hpop))
    obtain ⟨b, hb, hshows⟩ := hi.exists_branch?
    simp only [hpop, hb, h.queries, visited_of_output h.output, emitted_of_output h.output]
    by_cases hcancel : c.cancellation.isRequested x.queries = true
    · rw [if_pos hcancel, if_pos hcancel]
      exact .cancelled _
    rw [if_neg hcancel, if_neg hcancel]
    by_cases hlim : c.limitReached (x.found g c).length = true
    · rw [if_pos hlim, if_pos hlim]
      exact .finished (output_truncate h.output true)
    · rw [if_neg hlim, if_neg hlim]
      have hfound : ({ x with waiting := rest } : Search).found g c = x.found g c := rfl
      have hrest : State.Unfolds g c { s with frontier := f } { x with waiting := rest } :=
        ⟨his, h.tracker, h.output, h.queries⟩
      have hvisit := hrest.visit hi hshows (by rwa [hfound, ← Bool.not_eq_true])
      rw [← h.queries]
      exact hvisit

end Unfolds

/-! ### Whole runs -/

/-- A run of the traversal is a run of the search. -/
theorem Unfolds.run (h : s.Unfolds g c x) (fuel : ℕ) :
    (State.run g c fuel s).map (·.map State.output) =
      (Search.run g c fuel x).map (·.map (Search.output g c)) := by
  induction fuel generalizing s x with
  | zero => rfl
  | succ fuel ih =>
    rw [State.run, Search.run_succ]
    have hstep := h.step
    generalize s.step g c = a at hstep ⊢
    generalize x.step g c = b at hstep ⊢
    cases hstep with
    | running h => exact ih h
    | finished h => simp [Except.map, h]
    | cancelled visited => rfl

/-- The path of the branch whose turn it is. -/
def next? (s : State) : Option Path := s.frontier.pop?.bind fun next => s.forest.path? next.1

/-- What the step to `t` visits: the path whose turn it is, if the step counts a visit. -/
def visitedBefore (s t : State) : List Path :=
  if s.stats.visited < t.stats.visited then s.next?.toList else []

/-- The paths that a run visits, in order. -/
def visits (g : Graph) (c : Config) : ℕ → State → List Path
  | 0, _ => []
  | fuel + 1, s =>
    match s.step g c with
    | .running t => s.visitedBefore t ++ visits g c fuel t
    | .finished t => s.visitedBefore t
    | .cancelled _ => []

lemma Unfolds.next? (h : s.Unfolds g c x) (hw : x.waiting = p :: rest) : s.next? = some p := by
  have hfront := h.frontier
  rw [hw] at hfront
  obtain ⟨i, is, hi, -, hlist⟩ := List.forall₂_cons_right_iff.mp hfront
  rcases hpop : s.frontier.pop? with _ | ⟨j, f⟩
  · rw [Frontier.pop?_eq_none_iff, hlist] at hpop
    cases hpop
  · obtain ⟨rfl, -⟩ := List.cons_eq_cons.mp (hlist.symm.trans (Frontier.toList_eq_of_pop? hpop))
    rw [State.next?, hpop]
    exact hi.path?

lemma Unfolds.visitedBefore (h : s.Unfolds g c x) (hout : t.output = y.output g c)
    (hv : x.VisitsNext y) : y.visited = x.visited ++ s.visitedBefore t := by
  have hs := visited_of_output h.output
  have ht := visited_of_output hout
  unfold State.visitedBefore
  obtain hsame | ⟨p, rest, hw, hmore⟩ := hv
  · rw [hs, ht, hsame, if_neg (lt_irrefl _), List.append_nil]
  · rw [hs, ht, hmore, if_pos (by simp), h.next? hw]
    rfl

theorem Unfolds.visits (h : s.Unfolds g c x) {fuel : ℕ} {z : Search}
    (hrun : Search.run g c fuel x = some (.ok z)) :
    z.visited = x.visited ++ State.visits g c fuel s := by
  induction fuel generalizing s x with
  | zero => cases hrun
  | succ fuel ih =>
    have hrunning := fun y => Search.visitsNext_of_running (g := g) (c := c) (x := x) (y := y)
    have hfinished := fun y => Search.visitsNext_of_finished (g := g) (c := c) (x := x) (z := y)
    have hstep := h.step
    rw [State.visits]
    rw [Search.run_succ] at hrun
    generalize s.step g c = a at hstep ⊢
    generalize x.step g c = b at hstep hrun hrunning hfinished
    cases hstep with
    | running h' =>
      rw [ih h' hrun, h.visitedBefore h'.output (hrunning _ rfl), List.append_assoc]
    | finished hout =>
      cases hrun
      exact h.visitedBefore hout (hfinished _ rfl)
    | cancelled visited => cases hrun

end State

def visits (fuel : ℕ) (g : Graph) (starts : List NodeId) (c : Config) : List Path :=
  State.visits g c fuel (.init c starts)

variable {fuel : ℕ} {starts : List NodeId}

lemma check_eq_ok (hsample : c.sample ≠ some 0) (hstarts : ∀ s ∈ starts, (g.node? s).isSome) :
    check g starts c = .ok () := by
  have hnone : (starts.find? fun id => (g.node? id).isNone) = none := by
    rw [List.find?_eq_none]
    intro s hs
    simp [Option.isSome_iff_ne_none.mp (hstarts s hs)]
  rw [check, if_neg hsample, hnone]

/-- **Unfolding**: a traversal that is checked is a search from the starts. -/
theorem traverse_eq_search (h : check g starts c = .ok ()) (fuel : ℕ) :
    traverse fuel g starts c =
      (Search.run g c fuel (.init c starts)).map (·.map (Search.output g c)) := by
  rw [traverse, h]
  exact (State.unfolds_init g c starts).run fuel

lemma check_of_traverse {out : Output} (h : traverse fuel g starts c = some (.ok out)) :
    check g starts c = .ok () := by
  rcases hcheck : check g starts c with e | ⟨⟩
  · rw [traverse, hcheck] at h
    cases h
  · rfl

lemma exists_search_of_traverse {out : Output} (h : traverse fuel g starts c = some (.ok out)) :
    ∃ z, Search.run g c fuel (.init c starts) = some (.ok z) ∧ out = z.output g c ∧
      visits fuel g starts c = z.visited := by
  rw [traverse_eq_search (check_of_traverse h), Option.map_eq_some_iff] at h
  obtain ⟨r, hrun, hr⟩ := h
  obtain e | z := r
  · cases hr
  · cases hr
    exact ⟨z, hrun, rfl, ((State.unfolds_init g c starts).visits hrun).symm⟩

theorem exists_of_traverse_exhaustive (hcheck : check g starts c = .ok ()) (hc : c.Exhaustive)
    {Inv : Search → Prop}
    (hadvance : ∀ x p rest, x.waiting = p :: rest → Inv x → Inv (x.advance g c p rest))
    (hinit : Inv (.init c starts)) {r : Except WalkError Output}
    (h : traverse fuel g starts c = some r) :
    ∃ z, r = .ok (z.output g c) ∧ visits fuel g starts c = z.visited ∧ Inv z ∧ z.waiting = [] := by
  rw [traverse_eq_search hcheck, Option.map_eq_some_iff] at h
  obtain ⟨r', hrun, rfl⟩ := h
  obtain ⟨z, rfl, hz, hw⟩ := Search.exists_of_run_exhaustive hc hadvance hrun hinit
  exact ⟨z, rfl, ((State.unfolds_init g c starts).visits hrun).symm, hz, hw⟩

end Traversal

end GraphWalk
