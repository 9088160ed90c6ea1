import GraphWalk.Proofs.Graph.History
import GraphWalk.Proofs.Traversal.Cancellation

/-!
What the forest says of a branch: where it hangs, the steps that lead back from it, and its path.

The steps and the path of a branch are found by following parents, by two functions that know
nothing of one another. Both end, and agree, because a branch always comes after the one that it
continues and one level below it. The forest begins with the roots, and is only ever added to by a
step that schedules continuations of one of its branches; so these facts hold as long as the
traversal runs.
-/

namespace GraphWalk

open Traversal

lemma Path.lineage_eq (p : Path) :
    p.lineage = (List.zipWith Step.mk p.nodes (none :: p.relationships.map some)).reverse := by
  have hsteps : List.zipWith Step.mk (p.hops.map Hop.node) ((p.hops.map Hop.rel).map some) =
      p.hops.map fun hop => ⟨hop.node, some hop.rel⟩ := by
    rw [List.map_map, List.zipWith_map, List.zipWith_self]
    rfl
  rw [nodes, relationships, List.zipWith_cons_cons, List.reverse_cons, hsteps, lineage]

namespace Forest

variable {f : Forest} {i : ℕ} {b : Branch} {p : Path} {starts : List NodeId}

/-- Following parents from branch `i` ends at a root, after the branches listed. -/
inductive Climbs (f : Forest) : ℕ → List ℕ → Prop where
  | root {i : ℕ} {b : Branch} (hb : f.branch? i = some b) (he : b.entry = none) : Climbs f i [i]
  | up {i : ℕ} {b : Branch} {entry : Branch.Entry} {is : List ℕ} (hb : f.branch? i = some b)
    (he : b.entry = some entry) (h : Climbs f entry.parent is) : Climbs f i (i :: is)

/-- Branch `i` of the forest, which is `b`, is a root, or it hangs from a branch before it. -/
structure Hangs (f : Forest) (i : ℕ) (b : Branch) : Prop where
  entered : b.entry.map Branch.Entry.parent = none ↔ b.step.rel = none
  root : b.entry = none → b.depth = 0
  before : ∀ entry, b.entry = some entry → entry.parent < i
  below : ∀ entry, b.entry = some entry →
    ∃ parent, f.branch? entry.parent = some parent ∧ b.depth = parent.depth + 1

/-- Following parents from branch `i`, which is `b`, finds its steps and its path, which agree and
lead back to a start. -/
structure LeadsBack (f : Forest) (starts : List NodeId) (i : ℕ) (b : Branch) (p : Path) :
    Prop where
  climbs : ∃ is, f.Climbs i is ∧ is.length = b.depth + 1 ∧
    (f.lineage i).map some = is.map fun j => (f.branch? j).map Branch.step
  path : f.path? i = some p
  length : p.length = b.depth
  alternates : p.nodes.length = p.relationships.length + 1
  lineage : f.lineage i =
    (List.zipWith Step.mk p.nodes (none :: p.relationships.map some)).reverse
  start : p.start ∈ starts

/-! ### One branch -/

lemma Is.hangs (h : f.Is i p) (hb : f.branch? i = some b) : f.Hangs i b := by
  cases h with
  | root hroot =>
    cases hb.symm.trans hroot
    exact
      { entered := by simp [Branch.root, Branch.step]
        root := fun _ => rfl
        before := by rintro entry ⟨⟩
        below := by rintro entry ⟨⟩ }
  | push h hlt hpush =>
    cases hb.symm.trans hpush
    obtain ⟨parent, hparent, hshows⟩ := h.exists_branch?
    refine ⟨by simp [Branch.step], ?_, ?_, ?_⟩
    · rintro ⟨⟩
    · rintro entry ⟨⟩
      exact hlt
    · rintro entry ⟨⟩
      exact ⟨parent, hparent, by rw [hshows.depth]⟩

lemma Is.exists_climbs (h : f.Is i p) : ∃ is, f.Climbs i is ∧ is.length = p.length + 1 ∧
    (f.lineage i).map some = is.map fun j => (f.branch? j).map Branch.step := by
  induction h with
  | root hb =>
    refine ⟨_, .root hb rfl, by simp, ?_⟩
    rw [(Is.root hb).lineage]
    simp [hb, Branch.step, Branch.root]
  | push h hlt hb ih =>
    obtain ⟨is, hclimbs, hlen, hsteps⟩ := ih
    refine ⟨_, .up hb rfl hclimbs, by simp [hlen], ?_⟩
    rw [h.lineage] at hsteps
    rw [(Is.push h hlt hb).lineage]
    simp [hb, hsteps, Branch.step]

lemma Is.leadsBack (h : f.Is i p) (hb : f.branch? i = some b) (hp : p.start ∈ starts) :
    f.LeadsBack starts i b p := by
  obtain ⟨b', hb', hshows⟩ := h.exists_branch?
  cases hb.symm.trans hb'
  exact
    { climbs := hshows.depth ▸ h.exists_climbs
      path := h.path?
      length := hshows.depth.symm
      alternates := p.length_nodes
      lineage := by rw [h.lineage, p.lineage_eq]
      start := hp }

/-! ### All branches -/

/-- Every branch of the forest is a path from a start. -/
def Stems (f : Forest) (starts : List NodeId) : Prop :=
  ∀ i < f.size, ∃ p, f.Is i p ∧ p.start ∈ starts

lemma Stems.append (h : f.Stems starts) {bs : List Branch} {ps : List Path}
    (hbs : List.Forall₂ f.Grows bs ps) (hps : ∀ p ∈ ps, p.start ∈ starts) :
    (f.append bs).Stems starts := by
  intro i hi
  have hsize : (f.append bs).size = f.size + bs.length := by
    change (f.append bs).branches.size = f.branches.size + bs.length
    rw [← Array.length_toList, toList_append, List.length_append, Array.length_toList]
  rcases Nat.lt_or_ge i f.size with hold | hnew
  · obtain ⟨p, hp, hstart⟩ := h i hold
    exact ⟨p, hp.append bs, hstart⟩
  · obtain ⟨k, rfl⟩ := Nat.exists_eq_add_of_le hnew
    have hk : k < bs.length := by omega
    have hall := forall₂_is_append hbs
    have hlen : bs.length = ps.length := hbs.length_eq
    have hget := hall.get (i := k) (by simpa using hk) (hlen ▸ hk)
    simp only [List.get_eq_getElem, List.getElem_range', Nat.one_mul] at hget
    exact ⟨ps[k], hget, hps _ (List.getElem_mem _)⟩

end Forest

namespace Traversal

variable {g : Graph} {c : Config} {s t : State} {starts : List NodeId} {i : ℕ} {b : Branch}

namespace State

/-- The traversal from the starts comes through the state, or ends in it. -/
def Occurs (g : Graph) (c : Config) (starts : List NodeId) (s : State) : Prop :=
  ∃ t, Relation.ReflTransGen (Goes g c) (init c starts) t ∧ (s = t ∨ t.step g c = .finished s)

/-! ### What a step does to the forest -/

/-- The branches that continue branch `i`, which is `b`. -/
def shoots (g : Graph) (c : Config) (i : ℕ) (b : Branch) : List Branch :=
  (c.offered g b.node).map fun r => ⟨r.otherNode b.node, b.depth + 1, some ⟨i, r.id⟩⟩

lemma forest_expand : (s.expand g c i b).forest = s.forest.append (shoots g c i b) := rfl

/-- A step that the run goes on from adds to the forest what continues one of its branches, or
nothing. -/
lemma forest_of_goes (h : Goes g c s t) : t.forest = s.forest ∨
    ∃ i b, s.forest.branch? i = some b ∧ t.forest = s.forest.append (shoots g c i b) := by
  obtain ⟨i, rest, -, ⟨-, rfl⟩ | ⟨b, hb, hturn⟩⟩ := goes_cases h
  · exact .inl rfl
  · obtain ⟨-, rfl⟩ | ⟨-, ⟨-, rfl⟩ | ⟨-, rfl⟩⟩ := hturn
    · exact .inl rfl
    · refine .inr ⟨i, b, hb, ?_⟩
      rw [forest_expand, forest_enter]
    · exact .inl (forest_enter _ _)

lemma forest_of_finished (h : s.step g c = .finished t) : t.forest = s.forest := by
  unfold step at h
  split at h
  · cases h
    rfl
  · split_ifs at h
    · cases h
      rfl
    · split at h
      · cases h
      · rw [visit_eq] at h
        dsimp only at h
        split_ifs at h
        unfold proceed at h
        split_ifs at h
        cases h
        exact forest_enter _ _

/-! ### What a run does to the forest -/

lemma stems_init : (init c starts).forest.Stems starts := by
  have hempty : Forest.Stems {} starts := fun i hi => absurd hi (Nat.not_lt_zero i)
  refine hempty.append (Forest.forall₂_grows_root {} starts) fun p hp => ?_
  obtain ⟨node, hnode, rfl⟩ := List.mem_map.mp hp
  exact hnode

lemma stems_of_goes (hs : s.forest.Stems starts) (h : Goes g c s t) : t.forest.Stems starts := by
  obtain hsame | ⟨i, b, hb, hmore⟩ := forest_of_goes h
  · rwa [hsame]
  · obtain ⟨p, hp, hstart⟩ := hs i (Forest.lt_size hb)
    obtain ⟨b', hb', hshows⟩ := hp.exists_branch?
    cases hb.symm.trans hb'
    have hgrows := forall₂_grows (g := g) (c := c) hp
    rw [← hshows.node, ← hshows.depth] at hgrows
    rw [hmore]
    refine hs.append hgrows fun q hq => ?_
    obtain ⟨hop, -, rfl⟩ := List.mem_map.mp hq
    exact hstart

lemma stems_of_reaches (h : Relation.ReflTransGen (Goes g c) (init c starts) s) :
    s.forest.Stems starts := by
  induction h with
  | refl => exact stems_init
  | tail _ hstep ih => exact stems_of_goes ih hstep

lemma Occurs.stems (h : Occurs g c starts s) : s.forest.Stems starts := by
  obtain ⟨t, hruns, rfl | hfinished⟩ := h
  · exact stems_of_reaches hruns
  · rw [forest_of_finished hfinished]
    exact stems_of_reaches hruns

lemma exists_reaches_of_run {fuel : ℕ} (h : run g c fuel s = some (.ok t)) :
    ∃ u, Relation.ReflTransGen (Goes g c) s u ∧ u.step g c = .finished t := by
  induction fuel generalizing s with
  | zero => cases h
  | succ fuel ih =>
    rcases hstep : s.step g c with u | u | visited
    · rw [run_succ_of_running fuel hstep] at h
      obtain ⟨v, hruns, hlast⟩ := ih h
      exact ⟨v, hruns.head hstep, hlast⟩
    · rw [run_succ_of_finished fuel hstep] at h
      cases h
      exact ⟨s, .refl, hstep⟩
    · rw [run_succ_of_cancelled fuel hstep] at h
      cases h

lemma occurs_of_run {fuel : ℕ} (h : run g c fuel (.init c starts) = some (.ok t)) :
    Occurs g c starts t := by
  obtain ⟨u, hruns, hlast⟩ := exists_reaches_of_run h
  exact ⟨u, hruns, .inr hlast⟩

end State

/-- **Ancestry**: whatever state a traversal is in, every branch of its forest hangs from one before
it or is a root, and the steps back from it and its path are the same walk from a start. -/
theorem branches_lead_back (h : State.Occurs g c starts s) (hi : i < s.forest.size) :
    ∃ b p, s.forest.branch? i = some b ∧ s.forest.Hangs i b ∧ s.forest.LeadsBack starts i b p := by
  obtain ⟨p, hp, hstart⟩ := h.stems i hi
  obtain ⟨b, hb, -⟩ := hp.exists_branch?
  exact ⟨b, p, hb, hp.hangs hb, hp.leadsBack hb hstart⟩

/-- The last of five branches, there and back between two nodes; it waits but is not admitted. -/
theorem branches_lead_back_twoWay :
    ∃ s p, State.Occurs .twoWay {} [⟨0⟩] s ∧ 4 < s.forest.size ∧
      s.forest.Hangs 4 ⟨⟨0⟩, 2, some ⟨1, ⟨0⟩⟩⟩ ∧
      s.forest.LeadsBack [⟨0⟩] 4 ⟨⟨0⟩, 2, some ⟨1, ⟨0⟩⟩⟩ p ∧
      p = ⟨⟨0⟩, [⟨⟨0⟩, ⟨1⟩⟩, ⟨⟨0⟩, ⟨0⟩⟩]⟩ := by
  have hrun : (State.run .twoWay {} 12 (.init {} [⟨0⟩])).map
      (fun r => r.map fun s => (s.forest.size, s.forest.branch? 4, s.forest.path? 4)) =
        some (.ok (5, some ⟨⟨0⟩, 2, some ⟨1, ⟨0⟩⟩⟩,
          some ⟨⟨0⟩, [⟨⟨0⟩, ⟨1⟩⟩, ⟨⟨0⟩, ⟨0⟩⟩]⟩)) := by decide +kernel
  obtain ⟨r, hr, hforest⟩ := Option.map_eq_some_iff.mp hrun
  obtain e | s := r
  · cases hforest
  · obtain ⟨hsize, hrest⟩ := Prod.mk.inj (Except.ok.inj hforest)
    obtain ⟨hbranch, hpath⟩ := Prod.mk.inj hrest
    have hi : 4 < s.forest.size := by omega
    obtain ⟨b, p, hb, hhangs, hback⟩ := branches_lead_back (State.occurs_of_run hr) hi
    cases hbranch.symm.trans hb
    exact ⟨s, p, State.occurs_of_run hr, hi, hhangs, hback,
      Option.some.inj (hback.path.symm.trans hpath)⟩

end Traversal

end GraphWalk
