import GraphWalk.Proofs.Graph.History
import GraphWalk.Proofs.Traversal.Rows
import Mathlib.Logic.Relation

/-!
A call that is withdrawn says so, or it answers what it would have answered anyway.

Whether the caller has withdrawn a traversal is asked once a step, before the next branch is taken.
So up to the step that makes the fateful query the withdrawn run takes the same steps as the run
that nobody withdraws, and behind it there is only one question left: whether a branch waits.
-/

namespace GraphWalk

/-- The same traversal, withdrawn by the caller at the given moment. -/
def Config.withdrawn (c : Config) (k : Cancellation) : Config := { c with cancellation := k }

namespace Traversal

namespace State

variable {g : Graph} {c : Config} {s t u x : State} {i n fuel : ℕ} {b : Branch}

/-- A run takes the step from `s` to `t`. -/
def Goes (g : Graph) (c : Config) (s t : State) : Prop := s.step g c = .running t

/-- A run from `s` makes its `n`-th query in the step that leads to `t`: the visit of the branch
whose turn it is, which is expanded. -/
def Asks (g : Graph) (c : Config) (n : ℕ) (s t : State) : Prop :=
  ∃ u, Relation.ReflTransGen (Goes g c) s u ∧ Goes g c u t ∧ u.queries < n ∧ n ≤ t.queries

/-! ### Steps -/

/-- What a step does that the run goes on from: it passes over a branch that is not there, turns one
down, or enters one and, if its evaluation and the last level let it, continues it. -/
lemma goes_cases (h : Goes g c s t) : ∃ i rest, s.frontier.pop? = some (i, rest) ∧
    ((s.forest.branch? i = none ∧ t = { s with frontier := rest }) ∨
      ∃ b, s.forest.branch? i = some b ∧
        let a := s.tracker.accept (s.forest.lineageBefore b) b.step b.depth
        let e := c.evaluate b.node (g.labels b.node) b.depth
        let u := { s with frontier := rest }.enter i b a.2 e
        (a.1 = false ∧ t = { s with frontier := rest, tracker := a.2 }) ∨
          (a.1 = true ∧ ((e.expands = true ∧ c.expandsAt b.depth = true) ∧ t = u.expand g c i b ∨
            ¬ (e.expands = true ∧ c.expandsAt b.depth = true) ∧ t = u))) := by
  unfold Goes step at h
  split at h
  · cases h
  · next i rest hpop =>
    refine ⟨i, rest, hpop, ?_⟩
    split_ifs at h
    split at h
    · next hb =>
      cases h
      exact .inl ⟨hb, rfl⟩
    · next b hb =>
      refine .inr ⟨b, hb, ?_⟩
      rw [visit_eq] at h
      dsimp only at h ⊢
      split_ifs at h with ha
      · unfold proceed at h
        split_ifs at h with _ he
        · cases h
          exact .inr ⟨ha, .inl ⟨he, rfl⟩⟩
        · cases h
          exact .inr ⟨ha, .inr ⟨he, rfl⟩⟩
      · cases h
        exact .inl ⟨by simpa using ha, rfl⟩

/-! ### Queries -/

lemma queries_expand :
    (s.expand g c i b).queries = s.queries + c.relationshipFilter.queries.length := rfl

lemma queries_le_of_goes (h : Goes g c s t) : s.queries ≤ t.queries := by
  obtain ⟨i, rest, -, ⟨-, rfl⟩ | ⟨b, -, hturn⟩⟩ := goes_cases h
  · exact le_rfl
  · obtain ⟨-, rfl⟩ | ⟨-, ⟨-, rfl⟩ | ⟨-, rfl⟩⟩ := hturn
    · exact le_rfl
    · rw [queries_expand, queries_enter]
      exact Nat.le_add_right _ _
    · rw [queries_enter]

lemma queries_le_of_reaches (h : Relation.ReflTransGen (Goes g c) s t) :
    s.queries ≤ t.queries := by
  induction h with
  | refl => exact le_rfl
  | tail _ hstep ih => exact le_trans ih (queries_le_of_goes hstep)

lemma asks_iff_of_goes (h : Goes g c s t) (hn : s.queries < n) :
    Asks g c n s x ↔ if n ≤ t.queries then x = t else Asks g c n t x := by
  have hnext : ∀ u, Goes g c s u → u = t := by
    intro u hu
    rw [Goes, h] at hu
    exact (Progress.running.inj hu).symm
  split_ifs with hle
  · constructor
    · rintro ⟨u, hu, hux, hlt, -⟩
      rcases hu.cases_head with rfl | ⟨t', ht', htu⟩
      · exact hnext x hux
      · obtain rfl := hnext t' ht'
        have := queries_le_of_reaches htu
        omega
    · rintro rfl
      exact ⟨s, .refl, h, hn, hle⟩
  · constructor
    · rintro ⟨u, hu, hux, hlt, hx⟩
      rcases hu.cases_head with rfl | ⟨t', ht', htu⟩
      · exact absurd (hnext x hux ▸ hx) hle
      · exact ⟨u, hnext t' ht' ▸ htu, hux, hlt, hx⟩
    · rintro ⟨u, hu, hux, hlt, hx⟩
      exact ⟨u, hu.head h, hux, hlt, hx⟩

lemma not_asks_of_not_goes (h : ∀ t, ¬ Goes g c s t) : ¬ Asks g c n s x := by
  rintro ⟨u, hu, hux, -⟩
  rcases hu.cases_head with rfl | ⟨t, ht, -⟩
  · exact h x hux
  · exact h t ht

/-! ### One step -/

lemma step_withdrawn (h : s.queries < n) :
    s.step g (c.withdrawn (.after n)) = s.step g (c.withdrawn .never) := by
  have hno : (c.withdrawn (.after n)).cancellation.isRequested s.queries = false :=
    decide_eq_false (not_le.mpr h)
  unfold step
  rw [hno]
  rfl

lemma step_of_requested (h : n ≤ s.queries) : s.step g (c.withdrawn (.after n)) =
    if s.frontier.isEmpty then .finished s else .cancelled s.stats.visited := by
  have hyes : (c.withdrawn (.after n)).cancellation.isRequested s.queries = true :=
    decide_eq_true h
  unfold step
  rcases hpop : s.frontier.pop? with _ | ⟨i, rest⟩
  · rw [if_pos ((Frontier.isEmpty_iff _).mpr ((Frontier.pop?_eq_none_iff _).mp hpop))]
  · have hne : ¬ s.frontier.isEmpty = true := by
      rw [Frontier.isEmpty_iff, Frontier.toList_eq_of_pop? hpop]
      exact List.cons_ne_nil _ _
    rw [if_neg hne]
    dsimp only
    rw [if_pos hyes]

lemma step_never_of_isEmpty (h : s.frontier.isEmpty = true) :
    s.step g (c.withdrawn .never) = .finished s := by
  unfold step
  rw [(Frontier.pop?_eq_none_iff _).mpr ((Frontier.isEmpty_iff _).mp h)]

lemma proceed_ne_cancelled {e : Evaluation} (visited : ℕ) :
    s.proceed g c i b e ≠ .cancelled visited := by
  unfold proceed
  split_ifs <;> exact Progress.noConfusion

lemma step_never_ne_cancelled (visited : ℕ) :
    s.step g (c.withdrawn .never) ≠ .cancelled visited := by
  unfold step
  split
  · exact Progress.noConfusion
  · have hno : (c.withdrawn .never).cancellation.isRequested s.queries = false := rfl
    rw [hno, if_neg Bool.false_ne_true]
    split_ifs
    · exact Progress.noConfusion
    · split
      · exact Progress.noConfusion
      · rw [visit_eq]
        dsimp only
        split_ifs
        · exact proceed_ne_cancelled visited
        · exact Progress.noConfusion

/-! ### Whole runs -/

/-- What the caller is told who withdraws a call that is in the given state then, if it comes to it,
and would be answered by `r`. -/
def told {α : Type} (r : Except WalkError α) : Option State → Except WalkError α
  | none => r
  | some t => if t.frontier.isEmpty then r else .error (.cancelled t.stats.visited)

lemma run_of_requested {r : Except WalkError State} (hn : n ≤ s.queries)
    (h : run g (c.withdrawn .never) fuel s = some r) :
    run g (c.withdrawn (.after n)) fuel s = some (told r (some s)) := by
  obtain _ | fuel := fuel
  · cases h
  · by_cases hempty : s.frontier.isEmpty = true
    · have hstep := step_of_requested (g := g) (c := c) hn
      rw [if_pos hempty] at hstep
      rw [run_succ_of_finished fuel (step_never_of_isEmpty hempty)] at h
      rw [run_succ_of_finished fuel hstep, h, told, if_pos hempty]
    · have hstep := step_of_requested (g := g) (c := c) hn
      rw [if_neg hempty] at hstep
      rw [run_succ_of_cancelled fuel hstep, told, if_neg hempty]

/-- A run that is withdrawn at a query takes the steps of the run that is not until the query is
made. -/
theorem exists_run_withdrawn {r : Except WalkError State} (hn : s.queries < n)
    (h : run g (c.withdrawn .never) fuel s = some r) :
    ∃ t? : Option State, (∀ t, Asks g (c.withdrawn .never) n s t ↔ t? = some t) ∧
      run g (c.withdrawn (.after n)) fuel s = some (told r t?) := by
  induction fuel generalizing s with
  | zero => cases h
  | succ fuel ih =>
    rcases hstep : s.step g (c.withdrawn .never) with t | z | visited
    · have hsame : s.step g (c.withdrawn (.after n)) = .running t := by
        rw [step_withdrawn hn, hstep]
      rw [run_succ_of_running fuel hstep] at h
      rw [run_succ_of_running fuel hsame]
      by_cases hle : n ≤ t.queries
      · refine ⟨some t, fun x => ?_, run_of_requested hle h⟩
        rw [asks_iff_of_goes hstep hn, if_pos hle, Option.some.injEq, eq_comm]
      · obtain ⟨t?, hasks, hrun⟩ := ih (not_le.mp hle) h
        refine ⟨t?, fun x => ?_, hrun⟩
        rw [asks_iff_of_goes hstep hn, if_neg hle, hasks]
    · have hsame : s.step g (c.withdrawn (.after n)) = .finished z := by
        rw [step_withdrawn hn, hstep]
      rw [run_succ_of_finished fuel hstep] at h
      refine ⟨none, fun x => iff_of_false ?_ (Option.some_ne_none x).symm, ?_⟩
      · exact not_asks_of_not_goes fun t ht => by
          rw [Goes, hstep] at ht
          cases ht
      · rw [run_succ_of_finished fuel hsame, h]
        rfl
    · exact absurd hstep (step_never_ne_cancelled visited)

lemma exists_ok_of_run_never {r : Except WalkError State}
    (h : run g (c.withdrawn .never) fuel s = some r) : ∃ z, r = .ok z := by
  induction fuel generalizing s with
  | zero => cases h
  | succ fuel ih =>
    rcases hstep : s.step g (c.withdrawn .never) with t | z | visited
    · rw [run_succ_of_running fuel hstep] at h
      exact ih h
    · rw [run_succ_of_finished fuel hstep, Option.some.injEq] at h
      exact ⟨z, h.symm⟩
    · exact absurd hstep (step_never_ne_cancelled visited)

end State

/-- What the caller is told who withdraws a call at its `n`-th query, or before it if that is the
zeroth: `r'` where the answer would be `r` otherwise. -/
structure Withdrawal {α : Type} (g : Graph) (c : Config) (starts : List NodeId) (n : ℕ)
    (r r' : Except WalkError α) : Prop where
  whole : r' = r ∨ ∃ visited, r' = .error (.cancelled visited)
  beforehand : n = 0 → starts ≠ [] → r' = .error (.cancelled 0)
  /-- The branches counted are those visited up to the one whose expansion makes the query. -/
  visited : 0 < n → ∀ visited, r' = .error (.cancelled visited) →
    ∃ t, State.Asks g c n (.init c starts) t ∧ visited = t.stats.visited
  waiting : 0 < n → ∀ t, State.Asks g c n (.init c starts) t → t.frontier.toList ≠ [] →
    r' = .error (.cancelled t.stats.visited)
  /-- A query that the traversal does not make, such as one made for the cover, is of no account. -/
  later : 0 < n → (∀ t, ¬ State.Asks g c n (.init c starts) t) → r' = r

namespace Withdrawal

variable {α β : Type} {g : Graph} {c : Config} {starts : List NodeId} {n : ℕ}
  {r r' : Except WalkError α}

lemma map (h : Withdrawal g c starts n r r') (f : α → β) :
    Withdrawal g c starts n (r.map f) (r'.map f) where
  whole := by
    rcases h.whole with rfl | ⟨visited, rfl⟩
    · exact .inl rfl
    · exact .inr ⟨visited, rfl⟩
  beforehand := fun hn hstarts => by
    rw [h.beforehand hn hstarts]
    rfl
  visited := fun hn visited hr => by
    rcases r' with e | a
    · cases hr
      exact h.visited hn visited rfl
    · cases hr
  waiting := fun hn t ht hwait => by
    rw [h.waiting hn t ht hwait]
    rfl
  later := fun hn hno => by rw [h.later hn hno]

end Withdrawal

namespace State

variable {α : Type} {g : Graph} {c : Config} {starts : List NodeId} {n fuel : ℕ}

lemma isEmpty_frontier_init : (init c starts).frontier.isEmpty = starts.isEmpty := by
  rw [(unfolds_init .empty c starts).isEmpty_frontier, Search.init]
  cases starts <;> rfl

lemma whole_told (r : Except WalkError α) (t? : Option State) :
    told r t? = r ∨ ∃ visited, told r t? = .error (.cancelled visited) := by
  unfold told
  split
  · exact .inl rfl
  · split_ifs
    · exact .inl rfl
    · exact .inr ⟨_, rfl⟩

lemma withdrawal_beforehand (r : Except WalkError α) :
    Withdrawal g c starts 0 r (told r (some (.init c starts))) where
  whole := whole_told r _
  beforehand := fun _ hstarts => by
    rw [told, isEmpty_frontier_init, if_neg (by simpa using hstarts)]
    rfl
  visited := fun hn => absurd hn (Nat.lt_irrefl 0)
  waiting := fun hn => absurd hn (Nat.lt_irrefl 0)
  later := fun hn => absurd hn (Nat.lt_irrefl 0)

lemma withdrawal_told {t? : Option State} (hn : 0 < n)
    (hasks : ∀ t, Asks g c n (.init c starts) t ↔ t? = some t) (a : α) :
    Withdrawal g c starts n (.ok a) (told (.ok a) t?) where
  whole := whole_told _ t?
  beforehand := fun hzero => absurd hzero (Nat.ne_of_gt hn)
  visited := fun _ visited hr => by
    rcases t? with _ | t
    · cases hr
    · refine ⟨t, (hasks t).mpr rfl, ?_⟩
      rw [told] at hr
      split_ifs at hr
      cases hr
      rfl
  waiting := fun _ t ht hwait => by
    rw [(hasks t).mp ht, told, if_neg (by rwa [Frontier.isEmpty_iff])]
  later := fun _ hno => by
    rcases t? with _ | t
    · rfl
    · exact absurd ((hasks t).mpr rfl) (hno t)

lemma exists_withdrawal_of_run {r : Except WalkError State}
    (h : run g (c.withdrawn .never) fuel (.init c starts) = some r) :
    ∃ r', run g (c.withdrawn (.after n)) fuel (.init c starts) = some r' ∧
      Withdrawal g (c.withdrawn .never) starts n r r' := by
  rcases Nat.eq_zero_or_pos n with rfl | hn
  · exact ⟨_, run_of_requested (Nat.zero_le _) h, withdrawal_beforehand r⟩
  · obtain ⟨z, rfl⟩ := exists_ok_of_run_never h
    obtain ⟨t?, hasks, hrun⟩ := exists_run_withdrawn hn h
    exact ⟨_, hrun, withdrawal_told hn hasks z⟩

end State

lemma exists_withdrawal_of_traverse {g : Graph} {c : Config} {starts : List NodeId} {n fuel : ℕ}
    {r : Except WalkError Output} (hcheck : check g starts c = .ok ())
    (h : traverse fuel g starts (c.withdrawn .never) = some r) :
    ∃ r', traverse fuel g starts (c.withdrawn (.after n)) = some r' ∧
      Withdrawal g (c.withdrawn .never) starts n r r' := by
  have hrun : ∀ k, traverse fuel g starts (c.withdrawn k) =
      (State.run g (c.withdrawn k) fuel (.init c starts)).map (·.map State.output) := by
    intro k
    have hk : check g starts (c.withdrawn k) = .ok () := hcheck
    rw [traverse, hk]
    rfl
  rw [hrun, Option.map_eq_some_iff] at h
  obtain ⟨r₀, hr₀, rfl⟩ := h
  obtain ⟨r', hr', hw⟩ := State.exists_withdrawal_of_run (n := n) hr₀
  exact ⟨r'.map State.output, by rw [hrun, hr']; rfl, hw.map State.output⟩

end Traversal

open Traversal

variable {fuel n : ℕ} {g : Graph} {starts : List NodeId} {c : Config}

/-- **Withdrawal**: a traversal from nodes of the graph, and every procedure whose least level is not
refused, either gives the answer that it gives when nobody withdraws it, or says that it was
withdrawn and how many branches were visited by then. -/
theorem withdrawal_is_reported (hstarts : ∀ node ∈ starts, (g.node? node).isSome)
    (hsample : c.sample ≠ some 0) :
    (∀ r, traverse fuel g starts (c.withdrawn .never) = some r →
      ∃ r', traverse fuel g starts (c.withdrawn (.after n)) = some r' ∧
        Withdrawal g (c.withdrawn .never) starts n r r') ∧
    ∀ p : Procedure, (p.isSubgraph = true → c.minLevel ≤ 1) →
      ∀ r, p.answer fuel g starts (c.withdrawn .never) = some r →
        ∃ r', p.answer fuel g starts (c.withdrawn (.after n)) = some r' ∧
          Withdrawal g (p.settings (c.withdrawn .never)) starts n r r' := by
  have hcheck : check g starts c = .ok () := check_eq_ok hsample hstarts
  refine ⟨fun r h => exists_withdrawal_of_traverse hcheck h, fun p hlevel r h => ?_⟩
  have hsettings : ∀ k, p.settings (c.withdrawn k) = (p.settings c).withdrawn k := by
    intro k
    unfold Procedure.settings
    split_ifs <;> rfl
  have hcheck' : check g starts (p.settings c) = .ok () := by
    unfold Procedure.settings
    split_ifs <;> exact hcheck
  have hanswer : ∀ k, p.answer fuel g starts (c.withdrawn k) =
      (traverse fuel g starts ((p.settings c).withdrawn k)).map (·.map (p.shapes g c)) := by
    intro k
    rw [answer_of_le (c := c.withdrawn k) hlevel, hsettings]
    rfl
  rw [hanswer, Option.map_eq_some_iff] at h
  obtain ⟨r₀, hr₀, rfl⟩ := h
  obtain ⟨r', hr', hw⟩ := exists_withdrawal_of_traverse (n := n) hcheck' hr₀
  refine ⟨r'.map (p.shapes g c), ?_, hsettings .never ▸ hw.map _⟩
  rw [hanswer, hr']
  rfl

/-- From one of two nodes joined both ways: withdrawn at the first query, the subgraph is not
answered, though only one node is missing by then; withdrawn at the third one, it is. -/
theorem withdrawal_is_reported_twoWay :
    let c : Config := {}
    let p : Procedure := .shaped .subgraph
    ∃ r r₁ r₃, p.answer 12 .twoWay [⟨0⟩] (c.withdrawn .never) = some r ∧
      (p.answer 12 .twoWay [⟨0⟩] (c.withdrawn (.after 1)) = some r₁ ∧
        Withdrawal .twoWay (c.nodeOnce.withdrawn .never) [⟨0⟩] 1 r r₁ ∧
        r₁ = .error (.cancelled 1)) ∧
      p.answer 12 .twoWay [⟨0⟩] (c.withdrawn (.after 3)) = some r₃ ∧
        Withdrawal .twoWay (c.nodeOnce.withdrawn .never) [⟨0⟩] 3 r r₃ ∧
        r₃ = .ok (.subgraphs [some ⟨[⟨0⟩, ⟨1⟩], [⟨0⟩, ⟨1⟩]⟩]) := by
  intro c p
  have hrun : p.answer 12 .twoWay [⟨0⟩] (c.withdrawn .never) =
      some (.ok (.subgraphs [some ⟨[⟨0⟩, ⟨1⟩], [⟨0⟩, ⟨1⟩]⟩])) := by decide +kernel
  have hrun₁ : p.answer 12 .twoWay [⟨0⟩] (c.withdrawn (.after 1)) =
      some (.error (.cancelled 1)) := by decide +kernel
  have hrun₃ : p.answer 12 .twoWay [⟨0⟩] (c.withdrawn (.after 3)) =
      some (.ok (.subgraphs [some ⟨[⟨0⟩, ⟨1⟩], [⟨0⟩, ⟨1⟩]⟩])) := by decide +kernel
  have hstarts : ∀ node ∈ [(⟨0⟩ : NodeId)], (Graph.twoWay.node? node).isSome := by decide +kernel
  have hsample : c.sample ≠ some 0 := by decide
  have hlevel : p.isSubgraph = true → c.minLevel ≤ 1 := fun _ => Nat.zero_le 1
  obtain ⟨r₁, hr₁, hw₁⟩ :=
    (withdrawal_is_reported (n := 1) hstarts hsample).2 p hlevel _ hrun
  obtain ⟨r₃, hr₃, hw₃⟩ :=
    (withdrawal_is_reported (n := 3) hstarts hsample).2 p hlevel _ hrun
  rw [hrun₁, Option.some.injEq] at hr₁
  rw [hrun₃, Option.some.injEq] at hr₃
  subst hr₁ hr₃
  exact ⟨_, _, _, hrun, ⟨hrun₁, hw₁, rfl⟩, hrun₃, hw₃, rfl⟩

end GraphWalk
