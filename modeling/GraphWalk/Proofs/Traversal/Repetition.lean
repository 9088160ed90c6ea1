import GraphWalk.Proofs.Graph.History
import GraphWalk.Proofs.Traversal.Unfolding
import Mathlib.Data.List.Pairwise

/-!
What the uniqueness policies guarantee about the paths that one traversal reports.

With a path, every path that it goes on from was visited. So what a policy asks of the end of each
path when its turn comes holds at every place of every result: of the path before it under a policy
that looks at the branch alone, and against all other paths visited under a policy that marks items.
-/

namespace GraphWalk

lemma NodeId.val_injective : Function.Injective NodeId.val := fun _ _ h => NodeId.val_inj.mp h

lemma RelId.val_injective : Function.Injective RelId.val := fun _ _ h => RelId.val_inj.mp h

/-- Equal elements are more than `window` places apart. -/
def Spaced (window : ℕ) (as : List ℕ) : Prop :=
  ∀ i j n, i < j → as[i]? = some n → as[j]? = some n → i + window < j

/-- The last elements, as many as the window has, decide what may follow. -/
lemma Spaced.concat {window : ℕ} {as : List ℕ} {a : ℕ} (h : Spaced window as)
    (ha : a ∉ as.reverse.take window) : Spaced window (as ++ [a]) := by
  intro i j n hij hi hj
  rcases lt_trichotomy j as.length with hlt | rfl | hgt
  · rw [List.getElem?_append_left (by omega)] at hi hj
    exact h i j n hij hi hj
  · rw [List.getElem?_append_left hij] at hi
    rw [List.getElem?_concat_length, Option.some.injEq] at hj
    subst hj
    -- else `a` would be among the elements looked back at
    by_contra hnear
    have hback : (as.reverse.take window)[as.length - 1 - i]? = some a := by
      rw [List.getElem?_take_of_lt (by omega), List.getElem?_reverse (by omega), ← hi]
      congr 1
      omega
    exact ha (List.mem_of_getElem? hback)
  · rw [List.getElem?_eq_none (by simp; omega)] at hj
    cases hj

namespace Uniqueness

/-- The items of a path in order, by number. -/
def Item.along (item : Item) (p : Path) : List ℕ :=
  match item with
  | .node => p.nodes.map NodeId.val
  | .relationship => p.relationships.map RelId.val

def Item.hopsTo (item : Item) (i : ℕ) : ℕ :=
  match item with
  | .node => i
  | .relationship => i + 1

/-- What a policy guarantees about the paths that one traversal reports: that an item occurs once in
a path, or only so far apart, or that it occurs in all of them at one place only and after the same
steps, or, of the paths that have it at one place, after the same steps. -/
def Guarantees (u : Uniqueness) (window : ℕ) (paths : List Path) : Prop :=
  match u with
  | .unrestricted => True
  | .once item .path => ∀ p ∈ paths, (item.along p).Nodup
  | .once item .recent => ∀ p ∈ paths, Spaced window (item.along p)
  | .once item .global => ∀ p ∈ paths, ∀ q ∈ paths, ∀ i j n, (item.along p)[i]? = some n →
      (item.along q)[j]? = some n → i = j ∧ p.upTo (item.hopsTo i) = q.upTo (item.hopsTo j)
  | .once item .level => ∀ p ∈ paths, ∀ q ∈ paths, ∀ i n, (item.along p)[i]? = some n →
      (item.along q)[i]? = some n → p.upTo (item.hopsTo i) = q.upTo (item.hopsTo i)

/-! ### Policies that look at the branch -/

def Item.ofHop (item : Item) (hop : Hop) : ℕ :=
  match item with
  | .node => hop.node.val
  | .relationship => hop.rel.val

variable {item : Item} {p : Path} {hop : Hop} {window : ℕ}

lemma Item.along_push : item.along (p.push hop) = item.along p ++ [item.ofHop hop] := by
  cases item <;> simp [along, ofHop]

lemma permits_path_iff :
    (once item .path).Permits window p hop ↔ item.ofHop hop ∉ item.along p := by
  cases item
  · exact not_congr (List.mem_map_of_injective NodeId.val_injective).symm
  · exact not_congr (List.mem_map_of_injective RelId.val_injective).symm

lemma permits_recent_iff : (once item .recent).Permits window p hop ↔
    item.ofHop hop ∉ (item.along p).reverse.take window := by
  cases item
  · rw [Item.along, ← List.map_reverse, ← List.map_take]
    exact not_congr (List.mem_map_of_injective NodeId.val_injective).symm
  · rw [Item.along, ← List.map_reverse, ← List.map_take]
    exact not_congr (List.mem_map_of_injective RelId.val_injective).symm

lemma nodup_along (h : p.EachHop ((once item .path).Permits window)) : (item.along p).Nodup := by
  induction p using Path.pushRec with
  | single node => cases item <;> simp [Item.along]
  | push p hop ih =>
    obtain ⟨hp, hhop⟩ := Path.eachHop_push.mp h
    rw [permits_path_iff] at hhop
    rw [Item.along_push, ← List.concat_eq_append, List.nodup_concat]
    exact ⟨hhop, ih hp⟩

lemma spaced_along (h : p.EachHop ((once item .recent).Permits window)) :
    Spaced window (item.along p) := by
  induction p using Path.pushRec with
  | single node =>
    intro i j n hij hi hj
    have hlen : (item.along (.single node)).length ≤ 1 := by cases item <;> simp [Item.along]
    have hj' := (List.getElem?_eq_some_iff.mp hj).1
    omega
  | push p hop ih =>
    obtain ⟨hp, hhop⟩ := Path.eachHop_push.mp h
    rw [permits_recent_iff] at hhop
    rw [Item.along_push]
    exact (ih hp).concat hhop

/-! ### Policies that mark items -/

/-- The mark that a path sets when it is visited. -/
def mark? (u : Uniqueness) (p : Path) : Option Mark :=
  match u with
  | .once item .global => (item.of? p.step).map (Mark.mk 0)
  | .once item .level => (item.of? p.step).map (Mark.mk p.length)
  | _ => none

/-- The paths have no mark in common. -/
def Apart (u : Uniqueness) (p q : Path) : Prop := ∀ m, u.mark? p = some m → u.mark? q ≠ some m

instance (u : Uniqueness) : Std.Symm u.Apart := ⟨fun _ _ h m hq hp => h m hp hq⟩

variable {i n : ℕ}

lemma Item.hopsTo_le (h : (item.along p)[i]? = some n) : item.hopsTo i ≤ p.length := by
  have hlt := (List.getElem?_eq_some_iff.mp h).1
  cases item <;> simp [along, hopsTo, Path.nodes, Path.relationships, Path.length] at hlt ⊢ <;>
    omega

lemma Item.of?_step_upTo (h : (item.along p)[i]? = some n) :
    item.of? (p.upTo (item.hopsTo i)).step = some n := by
  cases item with
  | node =>
    rw [along, List.getElem?_map, Option.map_eq_some_iff] at h
    obtain ⟨node, hnode, rfl⟩ := h
    rw [← (Path.getElem?_nodes.mp hnode).2]
    rfl
  | relationship =>
    rw [along, Path.relationships, List.map_map, List.getElem?_map, Option.map_eq_some_iff] at h
    obtain ⟨hop, hhop, rfl⟩ := h
    have hlast : (p.hops.take (i + 1)).getLast? = some hop := by
      rw [List.getLast?_take, if_neg (Nat.succ_ne_zero i), Nat.add_sub_cancel, hhop]
      rfl
    simp [of?, Path.step, Path.upTo, hopsTo, hlast]

end Uniqueness

namespace Tracker

variable {t : Tracker} {p : Path} {m : Mark}

lemma accept_of_mark? (h : t.policy.mark? p = some m) :
    t.accept p.lineage.tail p.step p.length = t.mark m := by
  unfold Uniqueness.mark? at h
  unfold accept
  split at h
  · next item hp =>
    obtain ⟨n, hn, rfl⟩ := Option.map_eq_some_iff.mp h
    simp [hp, hn]
  · next item hp =>
    obtain ⟨n, hn, rfl⟩ := Option.map_eq_some_iff.mp h
    simp [hp, hn]
  · cases h

lemma snd_accept_of_mark? (h : t.policy.mark? p = none) :
    (t.accept p.lineage.tail p.step p.length).2 = t := by
  unfold Uniqueness.mark? at h
  unfold accept
  rcases hp : t.policy with _ | ⟨item, scope⟩
  · rfl
  · rcases hi : item.of? p.step with _ | n
    · simp [hi]
    · cases scope <;> simp_all

lemma mem_marks_accept : m ∈ (t.accept p.lineage.tail p.step p.length).2.marks ↔
    t.policy.mark? p = some m ∨ m ∈ t.marks := by
  rcases hm : t.policy.mark? p with _ | m'
  · simp [snd_accept_of_mark? hm]
  · rw [accept_of_mark? hm, mem_marks_mark, Option.some.injEq]

lemma policy_accept : (t.accept p.lineage.tail p.step p.length).2.policy = t.policy := by
  rcases hm : t.policy.mark? p with _ | m
  · rw [snd_accept_of_mark? hm]
  · rw [accept_of_mark? hm, policy_mark]

lemma window_accept : (t.accept p.lineage.tail p.step p.length).2.window = t.window := by
  rcases hm : t.policy.mark? p with _ | m
  · rw [snd_accept_of_mark? hm]
  · rw [accept_of_mark? hm, window_mark]

/-- A path whose mark is set is turned down, and no other path that sets a mark is. -/
lemma accept_iff_of_mark? (h : t.policy.mark? p = some m) :
    (t.accept p.lineage.tail p.step p.length).1 = true ↔ m ∉ t.marks := by
  rw [accept_of_mark? h, fst_mark_eq_true_iff]

lemma permits_of_accept {hop : Hop} {depth : ℕ}
    (h : (t.accept p.lineage ⟨hop.node, some hop.rel⟩ depth).1 = true) :
    t.policy.Permits t.window p hop := by
  by_cases hlocal : t.policy.IsLocal
  · exact (accept_hop hlocal p hop depth).mp h
  · rcases hp : t.policy with _ | ⟨_ | _, _ | _ | _ | _⟩ <;>
      simp_all [Uniqueness.IsLocal, Uniqueness.Permits]

end Tracker

namespace Search

variable {g : Graph} {c : Config} {starts : List NodeId} {x : Search} {p q : Path}
  {rest : List Path}

/-- What holds before every turn of a search: the policy allows the paths visited, and the marks of
the tracker are theirs, no two of them with the same. -/
structure Guarded (c : Config) (x : Search) : Prop where
  policy : x.tracker.policy = c.uniqueness
  window : x.tracker.window = max 1 c.recentWindow
  grown : x.Grown
  allowed : ∀ p ∈ x.visited, c.Allows p
  marks : ∀ m, m ∈ x.tracker.marks ↔ ∃ p ∈ x.visited, c.uniqueness.mark? p = some m
  distinct : x.visited.Pairwise c.uniqueness.Apart

lemma guarded_init : (init c starts).Guarded c where
  policy := rfl
  window := rfl
  grown := grown_init starts
  allowed := fun p hp => absurd hp List.not_mem_nil
  marks := fun m => by simp [init, Tracker.new]
  distinct := .nil

namespace Guarded

lemma allows_of_accept (h : x.Guarded c) (hp : p ∈ x.seen) (ha : (x.accept p).1 = true) :
    c.Allows p := by
  rcases p.eq_single_or_push with ⟨node, rfl⟩ | ⟨q, hop, rfl⟩
  · exact Path.eachHop_single _ node
  · rw [accept, Path.lineage_push, List.tail_cons, Path.step_push] at ha
    have hpermits := Tracker.permits_of_accept ha
    rw [h.policy, h.window] at hpermits
    exact Config.allows_push.mpr ⟨h.allowed q (h.grown q hop hp), hpermits⟩

lemma mark?_ne_of_accept (h : x.Guarded c) (ha : (x.accept p).1 = true) (hq : q ∈ x.visited)
    {m : Mark} (hm : c.uniqueness.mark? q = some m) : c.uniqueness.mark? p ≠ some m := by
  intro hp
  rw [← h.policy] at hp
  exact (Tracker.accept_iff_of_mark? hp).mp ha ((h.marks m).mpr ⟨q, hq, hm⟩)

lemma advance (h : x.Guarded c) (hw : x.waiting = p :: rest) :
    (x.advance g c p rest).Guarded c := by
  have hp : p ∈ x.seen := mem_seen_of_waiting hw
  have hmarks : ∀ m, m ∈ (x.advance g c p rest).tracker.marks ↔
      c.uniqueness.mark? p = some m ∨ ∃ q ∈ x.visited, c.uniqueness.mark? q = some m := by
    intro m
    rw [tracker_advance, accept, Tracker.mem_marks_accept, h.policy, h.marks]
  have hpolicy : (x.advance g c p rest).tracker.policy = c.uniqueness := by
    rw [tracker_advance, accept, Tracker.policy_accept, h.policy]
  have hwindow : (x.advance g c p rest).tracker.window = max 1 c.recentWindow := by
    rw [tracker_advance, accept, Tracker.window_accept, h.window]
  cases ha : (x.accept p).1
  · have hvisited : (x.advance g c p rest).visited = x.visited := visited_advance_of_refuse ha
    refine ⟨hpolicy, hwindow, h.grown.advance hw, hvisited ▸ h.allowed, fun m => ?_,
      hvisited ▸ h.distinct⟩
    rw [hmarks, hvisited]
    refine ⟨?_, .inr⟩
    rintro (hm | hm)
    · -- `p` was turned down because its mark was set
      by_contra hnone
      rw [← h.marks] at hnone
      rw [← h.policy] at hm
      have hacc := (Tracker.accept_iff_of_mark? hm).mpr hnone
      rw [accept, hacc] at ha
      cases ha
    · exact hm
  · have hvisited : (x.advance g c p rest).visited = x.visited ++ [p] :=
      visited_advance_of_accept ha
    refine ⟨hpolicy, hwindow, h.grown.advance hw, fun q hq => ?_, fun m => ?_, ?_⟩
    · rw [hvisited, List.mem_append, List.mem_singleton] at hq
      rcases hq with hq | rfl
      · exact h.allowed q hq
      · exact h.allows_of_accept hp ha
    · rw [hmarks, hvisited]
      simp [or_and_right, exists_or, or_comm]
    · rw [hvisited, List.pairwise_append]
      refine ⟨h.distinct, List.pairwise_singleton _ _, fun q hq r hr m hm => ?_⟩
      rw [List.mem_singleton.mp hr]
      exact h.mark?_ne_of_accept ha hq hm

lemma eq_of_mark? (h : x.Guarded c) {m : Mark} (hp : p ∈ x.visited) (hq : q ∈ x.visited)
    (hpm : c.uniqueness.mark? p = some m) (hqm : c.uniqueness.mark? q = some m) : p = q := by
  by_contra hne
  exact h.distinct.forall hp hq hne m hpm hqm

lemma upTo_eq_of_global (h : x.Guarded c) {item : Uniqueness.Item}
    (hu : c.uniqueness = .once item .global) (hp : p ∈ x.visited) (hq : q ∈ x.visited) {i j n : ℕ}
    (hi : (item.along p)[i]? = some n) (hj : (item.along q)[j]? = some n) :
    i = j ∧ p.upTo (item.hopsTo i) = q.upTo (item.hopsTo j) := by
  have hmark : ∀ r : Path, ∀ k, (item.along r)[k]? = some n →
      c.uniqueness.mark? (r.upTo (item.hopsTo k)) = some ⟨0, n⟩ := by
    intro r k hk
    rw [hu, Uniqueness.mark?, Uniqueness.Item.of?_step_upTo hk]
    rfl
  have hsame := h.eq_of_mark? (h.grown.upTo_mem hp _) (h.grown.upTo_mem hq _) (hmark p i hi)
    (hmark q j hj)
  refine ⟨?_, hsame⟩
  have hlen := congrArg Path.length hsame
  rw [Path.length_upTo p (Uniqueness.Item.hopsTo_le hi),
    Path.length_upTo q (Uniqueness.Item.hopsTo_le hj)] at hlen
  cases item <;> simpa [Uniqueness.Item.hopsTo] using hlen

lemma upTo_eq_of_level (h : x.Guarded c) {item : Uniqueness.Item}
    (hu : c.uniqueness = .once item .level) (hp : p ∈ x.visited) (hq : q ∈ x.visited) {i n : ℕ}
    (hpi : (item.along p)[i]? = some n) (hqi : (item.along q)[i]? = some n) :
    p.upTo (item.hopsTo i) = q.upTo (item.hopsTo i) := by
  have hmark : ∀ r : Path, (item.along r)[i]? = some n →
      c.uniqueness.mark? (r.upTo (item.hopsTo i)) = some ⟨item.hopsTo i, n⟩ := by
    intro r hr
    rw [hu, Uniqueness.mark?, Uniqueness.Item.of?_step_upTo hr,
      Path.length_upTo r (Uniqueness.Item.hopsTo_le hr)]
    rfl
  exact h.eq_of_mark? (h.grown.upTo_mem hp _) (h.grown.upTo_mem hq _) (hmark p hpi) (hmark q hqi)

lemma guarantees (h : x.Guarded c) {paths : List Path} (hsub : ∀ p ∈ paths, p ∈ x.visited) :
    c.uniqueness.Guarantees (max 1 c.recentWindow) paths := by
  have hallows : ∀ p ∈ paths, p.EachHop (c.uniqueness.Permits (max 1 c.recentWindow)) :=
    fun p hp => h.allowed p (hsub p hp)
  rcases hu : c.uniqueness with _ | ⟨item, _ | _ | _ | _⟩
  case unrestricted => trivial
  case once.global =>
    exact fun p hp q hq i j n hi hj => h.upTo_eq_of_global hu (hsub p hp) (hsub q hq) hi hj
  case once.path =>
    rw [hu] at hallows
    exact fun p hp => Uniqueness.nodup_along (hallows p hp)
  case once.recent =>
    rw [hu] at hallows
    exact fun p hp => Uniqueness.spaced_along (hallows p hp)
  case once.level =>
    exact fun p hp q hq i n hpi hqi => h.upTo_eq_of_level hu (hsub p hp) (hsub q hq) hpi hqi

end Guarded

end Search

open Traversal

/-- **What may not repeat**: the paths that one traversal reports keep what its uniqueness policy
guarantees, whatever stops it and in whatever order it goes. -/
theorem Traversal.results_keep_uniqueness {fuel : ℕ} {g : Graph} {starts : List NodeId} {c : Config}
    {out : Output} (h : traverse fuel g starts c = some (.ok out)) :
    c.uniqueness.Guarantees (max 1 c.recentWindow) out.paths := by
  obtain ⟨z, hrun, rfl, -⟩ := exists_search_of_traverse h
  have hvisited := Search.visited_of_run (g := g)
    (P := fun ps => c.uniqueness.Guarantees (max 1 c.recentWindow)
      (ps.filter fun p => (c.judge g p).includes))
    (fun x p rest hw hx => Search.Guarded.advance hx hw)
    (fun x hx => hx.guarantees fun p hp => (List.mem_filter.mp hp).1) hrun Search.guarded_init
  exact hvisited

/-- Out and back: by either relationship there is one path of each length. -/
theorem Traversal.results_keep_uniqueness_twoWay :
    ∃ out, traverse 12 .twoWay [⟨0⟩] { uniqueness := .once .node .level, maxLevel := some 2 } =
        some (.ok out) ∧ out.paths.length = 3 ∧
      (Uniqueness.once .node .level).Guarantees 16 out.paths := by
  have hrun : traverse 12 .twoWay [⟨0⟩] { uniqueness := .once .node .level, maxLevel := some 2 } =
      some (.ok ⟨[⟨⟨0⟩, []⟩, ⟨⟨0⟩, [⟨⟨0⟩, ⟨1⟩⟩]⟩, ⟨⟨0⟩, [⟨⟨0⟩, ⟨1⟩⟩, ⟨⟨1⟩, ⟨0⟩⟩]⟩],
        ⟨3, 3, 0, 2, false⟩⟩) := by
    decide +kernel
  exact ⟨_, hrun, rfl, results_keep_uniqueness hrun⟩

end GraphWalk
