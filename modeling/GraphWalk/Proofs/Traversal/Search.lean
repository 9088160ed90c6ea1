import GraphWalk.Proofs.Traversal.Walk
import GraphWalk.Traversal.Run

/-!
The traversal as a search that carries the whole path of every branch that waits.

There is no forest and no bookkeeping: the results and the counters are read off the paths visited
so far.
-/

namespace GraphWalk

open Traversal (Stats Output)

/-- What waits after `new` was scheduled: it comes behind the rest or before it. -/
def Order.schedule (order : Order) (rest new : List Path) : List Path :=
  match order with
  | .breadthFirst => rest ++ new
  | .depthFirst => new ++ rest

@[simp] lemma Order.mem_schedule {order : Order} {rest new : List Path} {p : Path} :
    p ∈ order.schedule rest new ↔ p ∈ rest ∨ p ∈ new := by
  cases order <;> simp [schedule, or_comm]

@[simp] lemma Order.schedule_nil (order : Order) (rest : List Path) :
    order.schedule rest [] = rest := by
  cases order <;> simp [schedule]

@[simp] lemma Order.nil_schedule (order : Order) (new : List Path) :
    order.schedule [] new = new := by
  cases order <;> simp [schedule]

lemma Order.schedule_perm (order : Order) (rest new : List Path) :
    (order.schedule rest new).Perm (rest ++ new) := by
  cases order
  · exact .refl _
  · exact List.perm_append_comm

lemma Order.schedule_filter (order : Order) (f : Path → Bool) (rest new : List Path) :
    (order.schedule rest new).filter f = order.schedule (rest.filter f) (new.filter f) := by
  cases order <;> exact List.filter_append ..

lemma Order.schedule_sublist (order : Order) {rest rest' : List Path} (h : rest'.Sublist rest)
    (new : List Path) : (order.schedule rest' new).Sublist (order.schedule rest new) := by
  cases order
  · exact h.append_right new
  · exact h.append_left new

lemma Order.rest_sublist_schedule (order : Order) (rest new : List Path) :
    rest.Sublist (order.schedule rest new) := by
  cases order
  · exact List.sublist_append_left rest new
  · exact List.sublist_append_right new rest

/-- The output after one more path was visited. -/
def Traversal.Output.visit (out : Output) (p : Path) (e : Evaluation) : Output where
  paths := out.paths ++ if e.includes then [p] else []
  stats :=
    { visited := out.stats.visited + 1
      emitted := out.stats.emitted + if e.includes then 1 else 0
      pruned := out.stats.pruned + if e = .prune then 1 else 0
      maxDepthReached := max out.stats.maxDepthReached p.length
      truncated := out.stats.truncated }

structure Search where
  waiting : List Path
  tracker : Tracker
  visited : List Path := []
  /-- How often the graph was asked for relationships. -/
  queries : ℕ := 0
  truncated : Bool := false

namespace Search

inductive Progress where
  | running (x : Search)
  | finished (x : Search)
  | cancelled (visited : ℕ)

variable (g : Graph) (c : Config)

/-- The search in which the starts wait. -/
def init (starts : List NodeId) : Search where
  waiting := starts.map .single
  tracker := .new c.uniqueness c.recentWindow

/-- The results among the paths visited. -/
def found (x : Search) : List Path := x.visited.filter fun p => (c.judge g p).includes

def stats (x : Search) : Stats where
  visited := x.visited.length
  emitted := (x.found g c).length
  pruned := x.visited.countP fun p => c.judge g p = .prune
  maxDepthReached := (x.visited.map Path.length).foldl max 0
  truncated := x.truncated

def output (x : Search) : Output := ⟨x.found g c, x.stats g c⟩

def accept (x : Search) (p : Path) : Bool × Tracker :=
  x.tracker.accept p.lineage.tail p.step p.length

def refuse (x : Search) (p : Path) : Search := { x with tracker := (x.accept p).2 }

def enter (x : Search) (p : Path) : Search :=
  { x with tracker := (x.accept p).2, visited := x.visited ++ [p] }

def expand (x : Search) (p : Path) : Search :=
  { x with
    waiting := c.order.schedule x.waiting (c.successors g p)
    queries := x.queries + if c.continues g p then c.relationshipFilter.queries.length else 0 }

/-- The search after the turn of `p`, behind which `rest` waits. -/
def advance (x : Search) (p : Path) (rest : List Path) : Search :=
  let y := { x with waiting := rest }
  if (x.accept p).1 then (y.enter p).expand g c p else y.refuse p

def step (x : Search) : Progress :=
  match x.waiting with
  | [] => .finished x
  | p :: rest =>
    if c.cancellation.isRequested x.queries then .cancelled x.visited.length
    else if c.limitReached (x.found g c).length then .finished { x with truncated := true }
    else
      let y := x.advance g c p rest
      if c.limitReached (y.found g c).length then .finished { y with truncated := !rest.isEmpty }
      else .running y

/-- Steps until the search is over, at most `fuel` of them. -/
def run : ℕ → Search → Option (Except WalkError Search)
  | 0, _ => none
  | fuel + 1, x =>
    match x.step g c with
    | .running y => run fuel y
    | .finished y => some (.ok y)
    | .cancelled visited => some (.error (.cancelled visited))

variable {g c} {x y z : Search} {p : Path} {rest : List Path}

/-! ### What a turn does -/

lemma advance_of_accept (h : (x.accept p).1 = true) :
    x.advance g c p rest = ({ x with waiting := rest }.enter p).expand g c p := by
  rw [advance, if_pos h]

lemma advance_of_refuse (h : (x.accept p).1 = false) :
    x.advance g c p rest = { x with waiting := rest }.refuse p := by
  rw [advance, h, if_neg Bool.false_ne_true]

lemma visited_advance_of_accept (h : (x.accept p).1 = true) :
    (x.advance g c p rest).visited = x.visited ++ [p] := by
  rw [advance_of_accept h]
  rfl

lemma visited_advance_of_refuse (h : (x.accept p).1 = false) :
    (x.advance g c p rest).visited = x.visited := by
  rw [advance_of_refuse h]
  rfl

@[simp] lemma tracker_advance : (x.advance g c p rest).tracker = (x.accept p).2 := by
  unfold advance
  split <;> rfl

lemma visited_advance : (x.advance g c p rest).visited = x.visited ∨
    (x.advance g c p rest).visited = x.visited ++ [p] := by
  cases ha : (x.accept p).1
  · exact .inl (visited_advance_of_refuse ha)
  · exact .inr (visited_advance_of_accept ha)

lemma step_eq_running (h : x.step g c = .running y) :
    ∃ p rest, x.waiting = p :: rest ∧ y = x.advance g c p rest := by
  unfold step at h
  split at h
  · cases h
  · next p rest hw =>
    dsimp only at h
    split_ifs at h
    cases h
    exact ⟨p, rest, hw, rfl⟩

lemma isRequested_of_running (h : x.step g c = .running y) :
    c.cancellation.isRequested x.queries = false := by
  unfold step at h
  split at h
  · cases h
  · dsimp only at h
    split_ifs at h with hrequested
    exact Bool.eq_false_iff.mpr hrequested

/-- A search is over when nothing waits, or as many results as asked for are found before the turn
of the next path or by that turn. -/
lemma step_eq_finished (h : x.step g c = .finished z) :
    (x.waiting = [] ∧ z = x) ∨
    (∃ p rest, x.waiting = p :: rest ∧ c.limitReached (x.found g c).length = true ∧
      z = { x with truncated := true }) ∨
    ∃ p rest, x.waiting = p :: rest ∧ c.limitReached (x.found g c).length = false ∧
      c.limitReached ((x.advance g c p rest).found g c).length = true ∧
      z = { x.advance g c p rest with truncated := !rest.isEmpty } := by
  unfold step at h
  split at h
  · next hw =>
    cases h
    exact .inl ⟨hw, rfl⟩
  · next p rest hw =>
    dsimp only at h
    split_ifs at h with _ hx hy
    · cases h
      exact .inr (.inl ⟨p, rest, hw, hx, rfl⟩)
    · cases h
      exact .inr (.inr ⟨p, rest, hw, by simpa using hx, hy, rfl⟩)

/-- The paths that were scheduled and not turned down. -/
def seen (x : Search) : List Path := x.visited ++ x.waiting

lemma mem_seen_of_visited (h : p ∈ x.visited) : p ∈ x.seen := List.mem_append_left _ h

lemma mem_seen_of_waiting (hw : x.waiting = p :: rest) : p ∈ x.seen := by
  simp [seen, hw]

lemma seen_perm_of_accept (hw : x.waiting = p :: rest) (ha : (x.accept p).1 = true) :
    (x.advance g c p rest).seen.Perm (x.seen ++ c.successors g p) := by
  rw [advance_of_accept ha]
  change ((x.visited ++ [p]) ++ c.order.schedule rest (c.successors g p)).Perm _
  refine ((c.order.schedule_perm rest _).append_left _).trans ?_
  simp [seen, hw]

lemma seen_perm_of_refuse (hw : x.waiting = p :: rest) (ha : (x.accept p).1 = false) :
    x.seen.Perm (p :: (x.advance g c p rest).seen) := by
  rw [advance_of_refuse ha, seen, hw]
  exact List.perm_middle

lemma mem_seen_of_refuse (hw : x.waiting = p :: rest) (ha : (x.accept p).1 = false) {q : Path}
    (hq : q ∈ x.seen) (hne : q ≠ p) : q ∈ (x.advance g c p rest).seen :=
  (List.mem_cons.mp ((seen_perm_of_refuse hw ha).mem_iff.mp hq)).resolve_left hne

lemma mem_seen_advance (hw : x.waiting = p :: rest) {q : Path}
    (hq : q ∈ (x.advance g c p rest).seen) : q ∈ x.seen ∨ q ∈ c.successors g p := by
  cases ha : (x.accept p).1
  · exact .inl ((seen_perm_of_refuse hw ha).mem_iff.mpr (List.mem_cons_of_mem p hq))
  · exact List.mem_append.mp ((seen_perm_of_accept hw ha).mem_iff.mp hq)

/-- Every path seen was scheduled by the path before its last hop, which was visited. -/
def Grown (x : Search) : Prop := ∀ p hop, p.push hop ∈ x.seen → p ∈ x.visited

lemma grown_init (starts : List NodeId) : (init c starts).Grown := by
  intro p hop hp
  obtain ⟨node, -, h⟩ := List.mem_map.mp hp
  exact absurd h (Path.single_ne_push node p hop)

lemma Grown.advance (h : x.Grown) (hw : x.waiting = p :: rest) :
    (x.advance g c p rest).Grown := by
  intro q hop hq
  cases ha : (x.accept p).1
  · rw [visited_advance_of_refuse ha]
    exact h q hop ((seen_perm_of_refuse hw ha).mem_iff.mpr (List.mem_cons_of_mem p hq))
  · rw [visited_advance_of_accept ha, List.mem_append, List.mem_singleton]
    rcases List.mem_append.mp ((seen_perm_of_accept hw ha).mem_iff.mp hq) with hq | hq
    · exact .inl (h q hop hq)
    · exact .inr (Config.push_mem_successors.mp hq).1

/-- With a path, all paths that it goes on from were visited. -/
lemma Grown.upTo_mem (h : x.Grown) (hp : p ∈ x.visited) (k : ℕ) : p.upTo k ∈ x.visited := by
  induction p using Path.pushRec with
  | single node => rwa [Path.upTo_of_length_le (Nat.zero_le k)]
  | push p hop ih =>
    rcases Nat.lt_or_ge p.length k with hlt | hge
    · rwa [Path.upTo_of_length_le (by rwa [Path.length_push])]
    · rw [Path.upTo_push_of_le p hop hge]
      exact ih (h p hop (mem_seen_of_visited hp))

/-- A step visits the path whose turn it is, or none. -/
def VisitsNext (x y : Search) : Prop :=
  y.visited = x.visited ∨ ∃ p rest, x.waiting = p :: rest ∧ y.visited = x.visited ++ [p]

lemma visitsNext_advance (hw : x.waiting = p :: rest) : x.VisitsNext (x.advance g c p rest) :=
  visited_advance.imp_right fun h => ⟨p, rest, hw, h⟩

lemma visitsNext_of_running (h : x.step g c = .running y) : x.VisitsNext y := by
  obtain ⟨p, rest, hw, rfl⟩ := step_eq_running h
  exact visitsNext_advance hw

lemma visitsNext_of_finished (h : x.step g c = .finished z) : x.VisitsNext z := by
  obtain ⟨-, rfl⟩ | ⟨_, _, -, -, rfl⟩ | ⟨p, rest, hw, -, -, rfl⟩ := step_eq_finished h
  · exact .inl rfl
  · exact .inl rfl
  · exact visitsNext_advance (g := g) (c := c) hw

lemma output_enter (x : Search) (p : Path) :
    (x.enter p).output g c = (x.output g c).visit p (c.judge g p) := by
  simp only [Output.visit, Search.enter, Search.output, Search.stats, Search.found,
    List.filter_append, List.countP_append, List.map_append, List.foldl_append, List.length_append]
  rcases hj : c.judge g p with _ | _ | _ | _ <;> simp [hj, Evaluation.includes]

/-! ### Runs -/

lemma run_succ (fuel : ℕ) (x : Search) : run g c (fuel + 1) x =
    match x.step g c with
    | .running y => run g c fuel y
    | .finished y => some (.ok y)
    | .cancelled visited => some (.error (.cancelled visited)) := rfl

/-- What every turn keeps holds when the search comes to its last step. -/
theorem exists_finished_of_run {Inv : Search → Prop}
    (hadvance : ∀ x p rest, x.waiting = p :: rest → Inv x → Inv (x.advance g c p rest)) {fuel : ℕ}
    (h : run g c fuel x = some (.ok z)) (hx : Inv x) :
    ∃ y, Inv y ∧ y.step g c = .finished z := by
  induction fuel generalizing x with
  | zero => cases h
  | succ fuel ih =>
    rw [run_succ] at h
    split at h
    · next y hy =>
      obtain ⟨p, rest, hw, rfl⟩ := step_eq_running hy
      exact ih h (hadvance x p rest hw hx)
    · next y hy =>
      cases h
      exact ⟨x, hx, hy⟩
    · cases h

theorem visited_of_run {Inv : Search → Prop} {P : List Path → Prop}
    (hadvance : ∀ x p rest, x.waiting = p :: rest → Inv x → Inv (x.advance g c p rest))
    (hvisited : ∀ x, Inv x → P x.visited) {fuel : ℕ} (h : run g c fuel x = some (.ok z))
    (hx : Inv x) : P z.visited := by
  obtain ⟨y, hy, hz⟩ := exists_finished_of_run hadvance h hx
  obtain ⟨-, rfl⟩ | ⟨_, _, -, -, rfl⟩ | ⟨p, rest, hw, -, -, rfl⟩ := step_eq_finished hz
  · exact hvisited _ hy
  · exact (hvisited y hy : P y.visited)
  · exact (hvisited _ (hadvance y p rest hw hy) : P (y.advance g c p rest).visited)

/-- A search is over some time if every turn that it goes on after lowers a well-founded measure. -/
theorem exists_isSome_run {α : Type} {lt : α → α → Prop} (hwf : WellFounded lt)
    (measure : Search → α) (Inv : Search → Prop)
    (hadvance : ∀ x p rest, x.waiting = p :: rest → Inv x → Inv (x.advance g c p rest))
    (hlt : ∀ x p rest, x.waiting = p :: rest → Inv x →
      x.step g c = .running (x.advance g c p rest) →
      lt (measure (x.advance g c p rest)) (measure x)) (hx : Inv x) :
    ∃ fuel, (run g c fuel x).isSome := by
  induction h : measure x using hwf.induction generalizing x with
  | _ m ih =>
    rcases hstep : x.step g c with y | y | visited
    · obtain ⟨p, rest, hw, rfl⟩ := step_eq_running hstep
      subst h
      obtain ⟨fuel, hfuel⟩ := ih _ (hlt x p rest hw hx hstep) (hadvance x p rest hw hx) rfl
      refine ⟨fuel + 1, ?_⟩
      rw [run_succ, hstep]
      exact hfuel
    · refine ⟨1, ?_⟩
      rw [run_succ, hstep]
      rfl
    · refine ⟨1, ?_⟩
      rw [run_succ, hstep]
      rfl

lemma exists_cancelled_of_run {fuel : ℕ} {e : WalkError} (h : run g c fuel x = some (.error e)) :
    ∃ visited, e = .cancelled visited := by
  induction fuel generalizing x with
  | zero => cases h
  | succ fuel ih =>
    rw [run_succ] at h
    split at h
    · exact ih h
    · cases h
    · next visited _ =>
      cases h
      exact ⟨visited, rfl⟩

/-! ### Only walks are scheduled -/

variable {starts : List NodeId}

lemma walk_init : ∀ p ∈ (init c starts).seen, c.Walk g starts p := by
  intro p hp
  obtain ⟨node, hnode, rfl⟩ := List.mem_map.mp hp
  exact Config.walk_single.mpr hnode

lemma walk_advance (h : ∀ p ∈ x.seen, c.Walk g starts p) (hw : x.waiting = p :: rest) :
    ∀ q ∈ (x.advance g c p rest).seen, c.Walk g starts q := by
  intro q hq
  rcases mem_seen_advance hw hq with hq | hq
  · exact h q hq
  · exact (h p (mem_seen_of_waiting hw)).of_mem_successors hq

lemma walk_of_run {fuel : ℕ} (h : run g c fuel (.init c starts) = some (.ok z)) :
    ∀ p ∈ z.visited, c.Walk g starts p :=
  visited_of_run (P := fun ps => ∀ p ∈ ps, c.Walk g starts p)
    (fun _ _ _ hw hx => walk_advance hx hw)
    (fun _ hx p hp => hx p (mem_seen_of_visited hp)) h walk_init

/-! ### Searches that nothing stops -/

end Search

/-- Neither a limit nor the caller stops the traversal. -/
structure Config.Exhaustive (c : Config) : Prop where
  limit : c.limit = none
  cancellation : c.cancellation = .never

namespace Search

variable {g : Graph} {c : Config} {x z : Search} {p : Path} {rest : List Path}

lemma isRequested_of_exhaustive (h : c.Exhaustive) (queries : ℕ) :
    c.cancellation.isRequested queries = false := by
  simp [h.cancellation, Cancellation.isRequested]

lemma step_of_unlimited (h : c.limit = none) (x : Search) : x.step g c =
    match x.waiting with
    | [] => .finished x
    | p :: rest =>
      if c.cancellation.isRequested x.queries then .cancelled x.visited.length
      else .running (x.advance g c p rest) := by
  have hno : ∀ emitted, c.limitReached emitted = false := fun emitted => by
    simp [Config.limitReached, h]
  unfold step
  split <;> simp [hno]

lemma step_of_exhaustive (h : c.Exhaustive) (x : Search) : x.step g c =
    match x.waiting with
    | [] => .finished x
    | p :: rest => .running (x.advance g c p rest) := by
  rw [step_of_unlimited h.limit]
  simp only [isRequested_of_exhaustive h, if_neg Bool.false_ne_true]

/-- What every turn keeps holds when nothing waits any more. -/
theorem exists_of_run_exhaustive (hc : c.Exhaustive) {Inv : Search → Prop}
    (hadvance : ∀ x p rest, x.waiting = p :: rest → Inv x → Inv (x.advance g c p rest)) {fuel : ℕ}
    {r : Except WalkError Search} (h : run g c fuel x = some r) (hx : Inv x) :
    ∃ z, r = .ok z ∧ Inv z ∧ z.waiting = [] := by
  induction fuel generalizing x with
  | zero => cases h
  | succ fuel ih =>
    rw [run_succ, step_of_exhaustive hc] at h
    split at h
    · next y hy =>
      split at hy
      · cases hy
      · next p rest hw =>
        cases hy
        exact ih h (hadvance x p rest hw hx)
    · next y hy =>
      split at hy
      · next hw =>
        cases hy
        cases h
        exact ⟨x, rfl, hx, hw⟩
      · cases hy
    · next n hy =>
      split at hy <;> cases hy

end Search

end GraphWalk
