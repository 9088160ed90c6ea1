import GraphWalk.Proofs.Graph.History
import GraphWalk.Proofs.Traversal.Turns
import GraphWalk.Proofs.Traversal.Unfolding

/-!
A limit leaves the first results of the traversal without it.

No turn of the search looks at the limit. So searches under two limits take the same turns, and the
smaller limit only ends them sooner. A turn finds one path at most, so a search ends with as many
results as its limit allows, or because nothing waits.
-/

namespace GraphWalk

open Traversal (Output)

/-- The path begins with the other one. -/
def Path.Extends (p q : Path) : Prop := ∃ k, p.upTo k = q

lemma Path.Extends.push {p q : Path} (h : p.Extends q) (hop : Hop) : (p.push hop).Extends q := by
  obtain ⟨k, rfl⟩ := h
  refine ⟨min k p.length, ?_⟩
  rw [upTo_push_of_le p hop (Nat.min_le_right k p.length)]
  simp [upTo, length, List.take_eq_take_iff]

namespace Search

variable {g : Graph} {c : Config} {x y z : Search} {p : Path} {rest : List Path}

/-! ### Where a run ends -/

lemma limitReached_iff {emitted : ℕ} :
    c.limitReached emitted = true ↔ ∃ n, c.limit = some n ∧ n ≤ emitted := by
  unfold Config.limitReached
  cases c.limit <;> simp

lemma limitReached_of_running (h : x.step g c = .running y) :
    c.limitReached (y.found g c).length = false := by
  unfold step at h
  split at h
  · cases h
  · dsimp only at h
    split_ifs at h with _ _ hy
    cases h
    simpa using hy

def Within (g : Graph) (c : Config) (x : Search) : Prop :=
  ∀ n, c.limit = some n → (x.found g c).length ≤ n

lemma within_init (starts : List NodeId) : (init c starts).Within g c := fun n _ => Nat.zero_le n

lemma within_of_limitReached (h : c.limitReached (x.found g c).length = false) :
    x.Within g c := by
  intro n hn
  by_contra hlt
  rw [limitReached_iff.mpr ⟨n, hn, by omega⟩] at h
  cases h

lemma Within.limit_eq (h : x.Within g c) (hx : c.limitReached (x.found g c).length = true) :
    c.limit = some (x.found g c).length := by
  obtain ⟨n, hn, hle⟩ := limitReached_iff.mp hx
  rw [hn, Option.some.injEq]
  exact le_antisymm hle (h n hn)

/-- The search `z` is where the limit, or that nothing waits, ends the turns from `x`, of which it
has taken `k`. -/
structure StopsAfter (g : Graph) (c : Config) (k : ℕ) (x z : Search) : Prop where
  visited : z.visited = ((turn g c)^[k] x).visited
  waiting : z.waiting = ((turn g c)^[k] x).waiting
  within : z.Within g c
  cause : z.waiting = [] ∨ c.limit = some (z.found g c).length
  /-- If no truncation is reported, nothing waits but the continuations of the last result. -/
  untruncated : z.truncated = false → z.waiting = [] ∨
    ∃ p, (z.found g c).getLast? = some p ∧ z.waiting = c.successors g p

lemma stopsAfter_advance (hw : x.waiting = p :: rest)
    (hx : c.limitReached (x.found g c).length = false)
    (hy : c.limitReached ((x.advance g c p rest).found g c).length = true) :
    StopsAfter g c 1 x { x.advance g c p rest with truncated := !rest.isEmpty } := by
  have hturn : (turn g c)^[1] x = x.advance g c p rest := turn_of_cons hw
  -- the limit would have been reached before, had the turn found nothing
  obtain hsame | ⟨hfound, hwaiting⟩ := found_advance g c x p rest
  · rw [hsame, hx] at hy
    cases hy
  have hwithin : (x.advance g c p rest).Within g c := by
    intro n hn
    have hlt : (x.found g c).length < n := by
      by_contra hge
      rw [limitReached_iff.mpr ⟨n, hn, by omega⟩] at hx
      cases hx
    rw [hfound, List.length_append, List.length_singleton]
    exact hlt
  exact
    { visited := by rw [hturn]
      waiting := by rw [hturn]
      within := hwithin
      cause := .inr (hwithin.limit_eq hy)
      untruncated := by
        intro htrunc
        have hrest : rest = [] := by simpa using htrunc
        refine .inr ⟨p, ?_, ?_⟩
        · change ((x.advance g c p rest).found g c).getLast? = some p
          rw [hfound, List.getLast?_append, List.getLast?_singleton, Option.some_or]
        · change (x.advance g c p rest).waiting = c.successors g p
          rw [hwaiting, hrest, Order.nil_schedule] }

/-- A run ends where its limit, or that nothing waits, ends its turns. -/
theorem exists_stopsAfter_of_run {fuel : ℕ} (h : run g c fuel x = some (.ok z))
    (hx : x.Within g c) : ∃ k, StopsAfter g c k x z := by
  induction fuel generalizing x with
  | zero => cases h
  | succ fuel ih =>
    rw [run_succ] at h
    split at h
    · next y hy =>
      have hwithin := within_of_limitReached (limitReached_of_running hy)
      obtain ⟨p, rest, hw, rfl⟩ := step_eq_running hy
      obtain ⟨k, hk⟩ := ih h hwithin
      rw [← turn_of_cons hw] at hk
      exact ⟨k + 1, { hk with }⟩
    · next y hy =>
      cases h
      obtain ⟨hw, rfl⟩ | ⟨p, rest, hw, hlim, rfl⟩ | ⟨p, rest, hw, hlim, hlim', rfl⟩ :=
        step_eq_finished hy
      · exact ⟨0, rfl, rfl, hx, .inl hw, fun _ => .inl hw⟩
      · exact ⟨0, rfl, rfl, hx, .inr (hx.limit_eq hlim), fun htrunc => nomatch htrunc⟩
      · exact ⟨1, stopsAfter_advance hw hlim hlim'⟩
    · cases h

/-! ### Two limits -/

variable {k k' n : ℕ} {m : Option ℕ} {z' : Search}

lemma found_eq_iterate (h : StopsAfter g { c with limit := m } k x z) :
    z.found g c = ((turn g c)^[k] x).found g c := by
  have hv := h.visited
  rw [turn_limit] at hv
  rw [found, found, hv]

lemma found_eq_of_nil {l : Option ℕ} (h : StopsAfter g { c with limit := l } k x z)
    (h' : StopsAfter g { c with limit := m } k' x z') (hle : k ≤ k') (hw : z.waiting = []) :
    z'.found g c = z.found g c := by
  have hnil : ((turn g c)^[k] x).waiting = [] := h.waiting.symm.trans hw
  rw [found_eq_iterate h, found_eq_iterate h', iterate_of_nil hle hnil]

lemma found_prefix_of_le {l : Option ℕ} (h : StopsAfter g { c with limit := l } k x z)
    (h' : StopsAfter g { c with limit := m } k' x z') (hle : k ≤ k') :
    z.found g c <+: z'.found g c := by
  rw [found_eq_iterate h, found_eq_iterate h']
  exact (visited_prefix_of_le hle).filter _

lemma found_eq_take (hle : ∀ b, m = some b → n ≤ b)
    (h : StopsAfter g { c with limit := some n } k x z)
    (h' : StopsAfter g { c with limit := m } k' x z') :
    z.found g c = (z'.found g c).take n := by
  have hn : (z.found g c).length ≤ n := h.within n rfl
  rcases Nat.le_total k k' with hk | hk
  · rcases h.cause with hw | hlim
    · rw [found_eq_of_nil h h' hk hw, List.take_of_length_le hn]
    · have hlen : n = (z.found g c).length := Option.some.inj hlim
      rw [hlen]
      exact List.prefix_iff_eq_take.mp (found_prefix_of_le h h' hk)
  · -- the larger limit allows no more than the smaller one, or nothing waits there either
    have hsame : z'.found g c = z.found g c := by
      rcases h'.cause with hw | hlim
      · exact (found_eq_of_nil h' h hk hw).symm
      · have hpre := found_prefix_of_le h' h hk
        have hge : n ≤ (z'.found g c).length := hle _ hlim
        exact hpre.eq_of_length (le_antisymm hpre.length_le (by omega))
    rw [hsame, List.take_of_length_le hn]

lemma extends_of_mem_successors {starts : List Path} {p q : Path}
    (hp : ∃ s ∈ starts, p.Extends s) (hq : q ∈ c.successors g p) : ∃ s ∈ starts, q.Extends s := by
  obtain ⟨s, hs, hext⟩ := hp
  obtain ⟨-, hop, -, rfl⟩ := Config.mem_successors.mp hq
  exact ⟨s, hs, hext.push hop⟩

/-- A search that reports no truncation leaves out nothing but what goes on from its last result. -/
lemma exists_found_eq_append (h : StopsAfter g { c with limit := some n } k x z)
    (h' : StopsAfter g { c with limit := none } k' x z') (htrunc : z.truncated = false) :
    ∃ more, z'.found g c = z.found g c ++ more ∧ ∀ q ∈ more, (z.found g c).length = n ∧
      ∃ p, (z.found g c).getLast? = some p ∧ ∃ s ∈ c.successors g p, q.Extends s := by
  have hdone : z'.waiting = [] := h'.cause.resolve_right fun hlim => nomatch hlim
  rcases Nat.le_total k k' with hk | hk
  · rcases h.cause with hw | hlim
    · exact ⟨[], by simp [found_eq_of_nil h h' hk hw], by simp⟩
    rcases h.untruncated htrunc with hw | ⟨p, hlast, hw⟩
    · exact ⟨[], by simp [found_eq_of_nil h h' hk hw], by simp⟩
    have hwaiting : ((turn g c)^[k] x).waiting = c.successors g p := h.waiting.symm.trans hw
    obtain ⟨later, hlater, hvisited⟩ := exists_visited_iterate (x := (turn g c)^[k] x)
      (P := fun q => ∃ s ∈ c.successors g p, q.Extends s)
      (fun q hq r hr => extends_of_mem_successors hq hr)
      (fun q hq => ⟨q, hwaiting ▸ hq, q.length, q.upTo_length⟩) (k' - k)
    rw [← Function.iterate_add_apply, Nat.sub_add_cancel hk] at hvisited
    refine ⟨later.filter fun q => (c.judge g q).includes, ?_, fun q hq => ?_⟩
    · rw [found_eq_iterate h, found_eq_iterate h', found, hvisited, List.filter_append]
      rfl
    · exact ⟨(Option.some.inj hlim).symm, p, hlast, hlater q (List.mem_filter.mp hq).1⟩
  · exact ⟨[], by simp [found_eq_of_nil h' h hk hdone], by simp⟩

end Search

open Traversal

/-- **A limit takes a prefix**: of two traversals that differ in their limits alone, the one with
the smaller limit reports the first results of the other, as many as it allows, and both count what
they report. -/
theorem Traversal.limit_takes_first_results {fuel fuel' n : ℕ} {m : Option ℕ} {g : Graph}
    {starts : List NodeId} {c : Config} {out out' : Output} (hle : ∀ b, m = some b → n ≤ b)
    (h : traverse fuel g starts { c with limit := some n } = some (.ok out))
    (h' : traverse fuel' g starts { c with limit := m } = some (.ok out')) :
    out.paths = out'.paths.take n ∧
      out.stats.emitted = out.paths.length ∧ out.stats.emitted ≤ n ∧
      out'.stats.emitted = out'.paths.length ∧ ∀ b, m = some b → out'.stats.emitted ≤ b := by
  obtain ⟨z, hrun, rfl, -⟩ := exists_search_of_traverse h
  obtain ⟨z', hrun', rfl, -⟩ := exists_search_of_traverse h'
  obtain ⟨k, hk⟩ := Search.exists_stopsAfter_of_run hrun (Search.within_init starts)
  obtain ⟨k', hk'⟩ := Search.exists_stopsAfter_of_run hrun' (Search.within_init starts)
  exact ⟨Search.found_eq_take hle hk hk', rfl, hk.within n rfl, rfl, hk'.within⟩

theorem Traversal.limit_takes_first_results_twoWay :
    let c : Config := { uniqueness := .once .relationship .path, order := .depthFirst }
    ∃ out out', traverse 12 .twoWay [⟨0⟩] { c with limit := some 2 } = some (.ok out) ∧
      traverse 12 .twoWay [⟨0⟩] { c with limit := some 4 } = some (.ok out') ∧
      out'.paths.length = 4 ∧ out.paths = out'.paths.take 2 := by
  intro c
  have hrun : traverse 12 .twoWay [⟨0⟩] { c with limit := some 2 } =
      some (.ok ⟨[⟨⟨0⟩, []⟩, ⟨⟨0⟩, [⟨⟨0⟩, ⟨1⟩⟩]⟩], ⟨2, 2, 0, 1, true⟩⟩) := by decide +kernel
  have hrun' : traverse 12 .twoWay [⟨0⟩] { c with limit := some 4 } =
      some (.ok ⟨[⟨⟨0⟩, []⟩, ⟨⟨0⟩, [⟨⟨0⟩, ⟨1⟩⟩]⟩, ⟨⟨0⟩, [⟨⟨0⟩, ⟨1⟩⟩, ⟨⟨1⟩, ⟨0⟩⟩]⟩,
        ⟨⟨0⟩, [⟨⟨1⟩, ⟨1⟩⟩]⟩], ⟨4, 4, 0, 2, false⟩⟩) := by
    decide +kernel
  have hle : ∀ b, some 4 = some b → 2 ≤ b := by
    rintro b ⟨⟩
    decide
  exact ⟨_, _, hrun, hrun', rfl, (limit_takes_first_results hle hrun hrun').1⟩

/-- **What no truncation means**: a traversal that reports no truncation leaves out nothing, but for
paths that go on from its last result when that is the last one the limit allows. -/
theorem Traversal.untruncated_leaves_out_continuations {fuel fuel' n : ℕ} {g : Graph}
    {starts : List NodeId} {c : Config} {out out' : Output}
    (h : traverse fuel g starts { c with limit := some n } = some (.ok out))
    (htrunc : out.stats.truncated = false)
    (h' : traverse fuel' g starts { c with limit := none } = some (.ok out')) :
    ∃ more, out'.paths = out.paths ++ more ∧ ∀ q ∈ more, out.paths.length = n ∧
      ∃ p, out.paths.getLast? = some p ∧ ∃ s ∈ c.successors g p, q.Extends s := by
  obtain ⟨z, hrun, rfl, -⟩ := exists_search_of_traverse h
  obtain ⟨z', hrun', rfl, -⟩ := exists_search_of_traverse h'
  obtain ⟨k, hk⟩ := Search.exists_stopsAfter_of_run hrun (Search.within_init starts)
  obtain ⟨k', hk'⟩ := Search.exists_stopsAfter_of_run hrun' (Search.within_init starts)
  exact Search.exists_found_eq_append hk hk' htrunc

lemma traverse_twoWay_limit_one : traverse 12 .twoWay [⟨0⟩] { limit := some 1 } =
    some (.ok ⟨[⟨⟨0⟩, []⟩], ⟨1, 1, 0, 0, false⟩⟩) := by
  decide +kernel

lemma traverse_twoWay : traverse 12 .twoWay [⟨0⟩] {} =
    some (.ok ⟨[⟨⟨0⟩, []⟩, ⟨⟨0⟩, [⟨⟨0⟩, ⟨1⟩⟩]⟩], ⟨2, 2, 0, 1, false⟩⟩) := by
  decide +kernel

/-- From one of two nodes, a limit of one leaves out the way on to the other node. -/
theorem Traversal.untruncated_leaves_out_continuations_twoWay :
    ∃ out out', traverse 12 .twoWay [⟨0⟩] { limit := some 1 } = some (.ok out) ∧
      out.stats.truncated = false ∧ traverse 12 .twoWay [⟨0⟩] {} = some (.ok out') ∧
      ∃ more, out'.paths = out.paths ++ more ∧ ∀ q ∈ more, out.paths.length = 1 ∧
        ∃ p, out.paths.getLast? = some p ∧
          ∃ s ∈ Config.default.successors .twoWay p, q.Extends s :=
  ⟨_, _, traverse_twoWay_limit_one, rfl, traverse_twoWay,
    untruncated_leaves_out_continuations (c := .default) traverse_twoWay_limit_one rfl
      traverse_twoWay⟩

/-- A traversal that reports no truncation can leave out a result that there is without its
limit. -/
theorem Traversal.untruncated_leaves_out_path :
    ∃ out out', traverse 12 .twoWay [⟨0⟩] { limit := some 1 } = some (.ok out) ∧
      out.stats.truncated = false ∧ traverse 12 .twoWay [⟨0⟩] {} = some (.ok out') ∧
      out.paths ≠ out'.paths :=
  ⟨_, _, traverse_twoWay_limit_one, rfl, traverse_twoWay, by decide⟩

end GraphWalk
