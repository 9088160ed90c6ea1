import GraphWalk.Proofs.Graph.History
import GraphWalk.Proofs.Traversal.Evaluation
import GraphWalk.Proofs.Traversal.Unfolding

/-!
To deny more takes paths away and does nothing else.

A node that is denied ends every path that arrives at it, whatever else is asked of it. Under a
policy that looks at nothing but the branch itself, no branch notices that another one is missing.
So the search that denies more takes the turns of the search that denies less, but for those of
paths that go on from a denied node.
-/

namespace GraphWalk

namespace Config

/-! ### Denied nodes on a path -/

section

variable (c : Config) (g : Graph)

/-- The nodes of a path about which the filters are asked: its start only if starts are filtered. -/
def asked (p : Path) : List NodeId := if c.filterStartNode then p.nodes else p.nodes.tail

/-- Whether one of these nodes is denied. -/
def meetsDenied (p : Path) : Bool := (c.asked p).any fun node => c.denies node (g.labels node)

/-- Whether one of them before the end of the path is denied. -/
def leavesDenied (p : Path) : Bool :=
  (c.asked p).dropLast.any fun node => c.denies node (g.labels node)

/-- The path is pruned since the node at its end is denied. -/
def DeniesEnd (p : Path) : Prop :=
  ¬ c.Bypasses p.length ∧ c.denies p.last (g.labels p.last) = true

instance (p : Path) : Decidable (c.DeniesEnd g p) := inferInstanceAs (Decidable (_ ∧ _))

end

variable {c c' : Config} {g : Graph} {p q : Path}

lemma asked_single (node : NodeId) :
    c.asked (.single node) = if c.filterStartNode then [node] else [] := rfl

lemma asked_push (p : Path) (hop : Hop) : c.asked (p.push hop) = c.asked p ++ [hop.node] := by
  unfold asked
  split <;> simp [Path.nodes]

lemma leavesDenied_single (node : NodeId) : c.leavesDenied g (.single node) = false := by
  rw [leavesDenied, asked_single]
  split <;> rfl

lemma leavesDenied_push (p : Path) (hop : Hop) :
    c.leavesDenied g (p.push hop) = c.meetsDenied g p := by
  rw [leavesDenied, asked_push, List.dropLast_concat, meetsDenied]

lemma meetsDenied_iff :
    c.meetsDenied g p = true ↔ c.leavesDenied g p = true ∨ c.DeniesEnd g p := by
  rcases p.eq_single_or_push with ⟨node, rfl⟩ | ⟨q, hop, rfl⟩
  · rw [leavesDenied_single, meetsDenied, asked_single, DeniesEnd, Bypasses]
    cases c.filterStartNode <;> simp
  · rw [leavesDenied_push, meetsDenied, asked_push, List.any_append, ← meetsDenied, DeniesEnd,
      Bypasses]
    simp

/-- The same configuration without deny rules. -/
def undenied (c : Config) : Config :=
  { c with
    labelFilter := { c.labelFilter with deny := [] }
    nodeFilter := { c.nodeFilter with deny := none } }

lemma judge_eq_undenied (c : Config) (g : Graph) (p : Path) :
    c.judge g p = if c.DeniesEnd g p then .prune else c.undenied.judge g p := by
  have hnone : c.undenied.denies p.last (g.labels p.last) = false := rfl
  rw [judge, judge, evaluate_eq, evaluate_eq, hnone]
  by_cases hb : c.Bypasses p.length
  · have hb' : c.undenied.Bypasses p.length := hb
    have hend : ¬ c.DeniesEnd g p := fun hend => hend.1 hb
    rw [if_neg hend, if_pos hb, if_pos hb']
    rfl
  · have hb' : ¬ c.undenied.Bypasses p.length := hb
    rw [if_neg hb, if_neg hb', if_neg Bool.false_ne_true]
    by_cases hd : c.denies p.last (g.labels p.last) = true
    · have hend : c.DeniesEnd g p := ⟨hb, hd⟩
      rw [if_pos hend, if_pos hd]
    · have hend : ¬ c.DeniesEnd g p := fun hend => hd hend.2
      rw [if_neg hend, if_neg hd]
      rfl

/-! ### More denied nodes -/

/-- What the first configuration denies the second one denies as well, and in all else they agree.
-/
structure DeniesMore (c c' : Config) : Prop where
  labels : c.labelFilter.deny ⊆ c'.labelFilter.deny
  nodes : ∀ node, c.nodeFilter.denies node = true → c'.nodeFilter.denies node = true
  same : c'.undenied = c.undenied

namespace DeniesMore

lemma denies (h : c.DeniesMore c') {node : NodeId} {labels : List String}
    (hc : c.denies node labels = true) : c'.denies node labels = true := by
  unfold Config.denies at hc ⊢
  rw [Bool.or_eq_true] at hc ⊢
  refine hc.imp (fun hlabel => ?_) (h.nodes node)
  obtain ⟨clause, hmem, hall⟩ := List.any_eq_true.mp hlabel
  exact List.any_eq_true.mpr ⟨clause, h.labels hmem, hall⟩

lemma eq_of_undenied {α : Type} (h : c.DeniesMore c') (f : Config → α)
    (hf : ∀ c : Config, f c.undenied = f c) : f c' = f c := by
  rw [← hf c', h.same, hf c]

lemma deniesEnd (h : c.DeniesMore c') (hend : c.DeniesEnd g p) : c'.DeniesEnd g p := by
  refine ⟨?_, h.denies hend.2⟩
  rw [h.eq_of_undenied (fun c => c.Bypasses p.length) fun _ => rfl]
  exact hend.1

lemma judge_eq (h : c.DeniesMore c') (g : Graph) (p : Path) :
    c'.judge g p = if c'.DeniesEnd g p then .prune else c.judge g p := by
  rw [judge_eq_undenied, h.same, judge_eq_undenied c]
  split_ifs with hend hend'
  · rfl
  · exact absurd (h.deniesEnd hend') hend
  · rfl

lemma continues_iff (h : c.DeniesMore c') (g : Graph) (p : Path) :
    c'.continues g p = true ↔ c.continues g p = true ∧ ¬ c'.DeniesEnd g p := by
  have hat := h.eq_of_undenied (fun c => c.expandsAt p.length) fun _ => rfl
  unfold continues
  rw [h.judge_eq, hat]
  split_ifs with hend
  · simp [hend, Evaluation.expands]
  · simp [hend]

lemma queries_le (h : c.DeniesMore c') (g : Graph) (p : Path) :
    (if c'.continues g p then c'.relationshipFilter.queries.length else 0) ≤
      if c.continues g p then c.relationshipFilter.queries.length else 0 := by
  have hrel := h.eq_of_undenied Config.relationshipFilter fun _ => rfl
  split_ifs with hcont' hcont
  · rw [hrel]
  · exact absurd ((h.continues_iff g p).mp hcont').1 hcont
  · exact Nat.zero_le _
  · exact le_rfl

/-- The continuations of a path that do not go on from a denied node are those that it has where
more is denied. -/
lemma filter_successors (h : c.DeniesMore c') (g : Graph) (p : Path) :
    (c.successors g p).filter (!c'.leavesDenied g ·) =
      if c'.leavesDenied g p then [] else c'.successors g p := by
  have hlast : ∀ q ∈ c.successors g p, c'.leavesDenied g q = c'.meetsDenied g p := by
    intro q hq
    obtain ⟨-, hop, -, rfl⟩ := mem_successors.mp hq
    exact leavesDenied_push p hop
  -- all continuations go on from the same nodes, so all of them stay or none
  by_cases hmeets : c'.meetsDenied g p = true
  · have hnone : (c.successors g p).filter (!c'.leavesDenied g ·) = [] := by
      rw [List.filter_eq_nil_iff]
      intro q hq
      simp [hlast q hq, hmeets]
    rw [hnone]
    split
    · rfl
    · next hleaves =>
      have hend := (meetsDenied_iff.mp hmeets).resolve_left hleaves
      rw [successors, if_neg fun hcont => ((h.continues_iff g p).mp hcont).2 hend]
  · have hall : (c.successors g p).filter (!c'.leavesDenied g ·) = c.successors g p := by
      rw [List.filter_eq_self]
      intro q hq
      simp [hlast q hq, hmeets]
    rw [meetsDenied_iff, not_or] at hmeets
    have hcont : c'.continues g p = c.continues g p := by
      rw [Bool.eq_iff_iff, h.continues_iff, and_iff_left hmeets.2]
    have hchildren := h.eq_of_undenied (fun c => c.children g p) fun _ => rfl
    rw [hall, if_neg hmeets.1, successors, successors, hcont, hchildren]

lemma includes_iff (h : c.DeniesMore c') (g : Graph) (p : Path) :
    (c'.leavesDenied g p = false ∧ (c'.judge g p).includes = true) ↔
      (c'.meetsDenied g p = false ∧ (c.judge g p).includes = true) := by
  rw [← Bool.not_eq_true, ← Bool.not_eq_true, meetsDenied_iff, not_or, h.judge_eq, and_assoc]
  refine and_congr_right fun _ => ?_
  split_ifs with hend
  · simp [hend, Evaluation.includes]
  · simp [hend]

end DeniesMore

end Config

lemma Cancellation.isRequested_mono {k : Cancellation} {n m : ℕ} (hle : n ≤ m)
    (h : k.isRequested m = false) : k.isRequested n = false := by
  cases k with
  | never => rfl
  | after queries =>
    simp only [isRequested, decide_eq_false_iff_not] at h ⊢
    omega

namespace Search

variable {g : Graph} {c c' : Config} {starts : List NodeId} {x y z : Search} {p : Path}
  {rest : List Path}

/-- The second search is where the first one is, but for the paths that go on from a denied node. -/
structure Thins (g : Graph) (c' : Config) (x y : Search) : Prop where
  isLocal : x.tracker.policy.IsLocal
  tracker : y.tracker = x.tracker
  waiting : y.waiting = x.waiting.filter (!c'.leavesDenied g ·)
  visited : y.visited = x.visited.filter (!c'.leavesDenied g ·)
  queries : y.queries ≤ x.queries

namespace Thins

lemma init (h : c.DeniesMore c') (hu : c.uniqueness.IsLocal) :
    Thins g c' (init c starts) (init c' starts) where
  isLocal := hu
  tracker := h.eq_of_undenied (fun c => Tracker.new c.uniqueness c.recentWindow) fun _ => rfl
  waiting := by
    refine (List.filter_eq_self.mpr fun p hp => ?_).symm
    obtain ⟨node, -, rfl⟩ := List.mem_map.mp hp
    rw [Config.leavesDenied_single]
    rfl
  visited := rfl
  queries := le_rfl

lemma tracker_accept (h : Thins g c' x y) (p : Path) : (x.accept p).2 = x.tracker :=
  Tracker.accept_of_isLocal h.isLocal _ _ _

/-- The turn of a path that goes on from a denied node passes unnoticed. -/
lemma advance_left (hmore : c.DeniesMore c') (h : Thins g c' x y) (hw : x.waiting = p :: rest)
    (hp : c'.leavesDenied g p = true) : Thins g c' (x.advance g c p rest) y := by
  have hrest : y.waiting = rest.filter (!c'.leavesDenied g ·) := by
    rw [h.waiting, hw, List.filter_cons_of_neg (by simp [hp])]
  have hlocal : (x.accept p).2.policy.IsLocal := (h.tracker_accept p).symm ▸ h.isLocal
  have htracker : y.tracker = (x.accept p).2 := h.tracker.trans (h.tracker_accept p).symm
  cases ha : (x.accept p).1
  · rw [advance_of_refuse ha]
    exact ⟨hlocal, htracker, hrest, h.visited, h.queries⟩
  · rw [advance_of_accept ha]
    refine ⟨hlocal, htracker, ?_, ?_, le_trans h.queries (Nat.le_add_right _ _)⟩
    · change y.waiting = (c.order.schedule rest (c.successors g p)).filter _
      rw [Order.schedule_filter, hmore.filter_successors, if_pos hp, Order.schedule_nil, hrest]
    · change y.visited = (x.visited ++ [p]).filter _
      rw [List.filter_append, ← h.visited, List.filter_cons_of_neg (by simp [hp]), List.filter_nil,
        List.append_nil]

lemma advance_both (hmore : c.DeniesMore c') (h : Thins g c' x y) (hw : x.waiting = p :: rest)
    (hp : c'.leavesDenied g p = false) : ∃ rest', y.waiting = p :: rest' ∧
      Thins g c' (x.advance g c p rest) (y.advance g c' p rest') := by
  have haccept : y.accept p = x.accept p := by
    rw [accept, h.tracker]
    rfl
  have hlocal : (x.accept p).2.policy.IsLocal := (h.tracker_accept p).symm ▸ h.isLocal
  have htracker : (y.accept p).2 = (x.accept p).2 := congrArg Prod.snd haccept
  have horder := hmore.eq_of_undenied Config.order fun _ => rfl
  refine ⟨rest.filter (!c'.leavesDenied g ·), ?_, ?_⟩
  · rw [h.waiting, hw, List.filter_cons_of_pos (by simp [hp])]
  · cases ha : (x.accept p).1
    · rw [advance_of_refuse ha, advance_of_refuse ((congrArg Prod.fst haccept).trans ha)]
      exact ⟨hlocal, htracker, rfl, h.visited, h.queries⟩
    · rw [advance_of_accept ha, advance_of_accept ((congrArg Prod.fst haccept).trans ha)]
      refine ⟨hlocal, htracker, ?_, ?_, Nat.add_le_add h.queries (hmore.queries_le g p)⟩
      · change c'.order.schedule _ _ = (c.order.schedule rest (c.successors g p)).filter _
        rw [Order.schedule_filter, hmore.filter_successors, if_neg (by simp [hp]), horder]
        rfl
      · change y.visited ++ [p] = (x.visited ++ [p]).filter _
        rw [List.filter_append, ← h.visited, List.filter_cons_of_pos (by simp [hp]),
          List.filter_nil]

/-- Whatever is found by a search that comes to an end, the search that denies more finds what is
left of it, and comes to an end as well. -/
lemma exists_run (hmore : c.DeniesMore c') (hlimit : c.limit = none) (h : Thins g c' x y)
    {fuel : ℕ} (hrun : run g c fuel x = some (.ok z)) :
    ∃ fuel' z', run g c' fuel' y = some (.ok z') ∧ Thins g c' z z' := by
  induction fuel generalizing x y with
  | zero => cases hrun
  | succ fuel ih =>
    have hlimit' := (hmore.eq_of_undenied Config.limit fun _ => rfl).trans hlimit
    rw [run_succ, step_of_unlimited hlimit] at hrun
    rcases hw : x.waiting with _ | ⟨p, rest⟩
    · rw [hw] at hrun
      cases hrun
      refine ⟨1, y, ?_, h⟩
      rw [run_succ, step_of_unlimited hlimit', h.waiting, hw]
      rfl
    · rw [hw] at hrun
      rcases hreq : c.cancellation.isRequested x.queries
      · simp only [hreq, if_neg Bool.false_ne_true] at hrun
        cases hp : c'.leavesDenied g p
        · obtain ⟨rest', hw', hnext⟩ := h.advance_both hmore hw hp
          obtain ⟨fuel', z', hrun', hz⟩ := ih hnext hrun
          -- the other search has made as many queries at least, and was not withdrawn for them
          have hreq' : c'.cancellation.isRequested y.queries = false := by
            rw [hmore.eq_of_undenied Config.cancellation fun _ => rfl]
            exact Cancellation.isRequested_mono h.queries hreq
          refine ⟨fuel' + 1, z', ?_, hz⟩
          rw [run_succ, step_of_unlimited hlimit', hw']
          simp only [hreq', if_neg Bool.false_ne_true]
          exact hrun'
        · exact ih (h.advance_left hmore hw hp) hrun
      · simp only [hreq, if_pos] at hrun
        cases hrun

lemma found_eq (hmore : c.DeniesMore c') (h : Thins g c' x y) :
    y.found g c' = (x.found g c).filter (!c'.meetsDenied g ·) := by
  rw [found, found, h.visited, List.filter_filter, List.filter_filter]
  refine List.filter_congr fun p _ => ?_
  have hiff := hmore.includes_iff g p
  rw [Bool.eq_iff_iff]
  simpa [and_comm] using hiff

end Thins

end Search

open Traversal

/-- **Denylist supremacy**: under a policy that looks at nothing but the branch itself, a traversal
without a limit that denies more reports what it would report otherwise, in the same order, but for
the paths that meet a denied node. -/
theorem Traversal.denying_removes_paths {fuel : ℕ} {g : Graph} {starts : List NodeId}
    {c c' : Config} {out : Output} (hlimit : c.limit = none) (hu : c.uniqueness.IsLocal)
    (hmore : c.DeniesMore c') (h : traverse fuel g starts c = some (.ok out)) :
    ∃ fuel' out', traverse fuel' g starts c' = some (.ok out') ∧
      out'.paths = out.paths.filter fun p => !c'.meetsDenied g p := by
  have hcheck : check g starts c' = .ok () :=
    (hmore.eq_of_undenied (check g starts) fun _ => rfl).trans (check_of_traverse h)
  obtain ⟨z, hrun, rfl, -⟩ := exists_search_of_traverse h
  obtain ⟨fuel', z', hrun', hz⟩ :=
    (Search.Thins.init hmore hu).exists_run hmore hlimit hrun
  refine ⟨fuel', z'.output g c', ?_, hz.found_eq hmore⟩
  rw [traverse_eq_search hcheck, hrun']
  rfl

/-- There and back by either way: when the node there is denied nothing is left but the start,
though an allowlist still names that node. -/
theorem Traversal.denying_removes_paths_twoWay :
    let c : Config :=
      { uniqueness := .once .relationship .path, order := .depthFirst
        labelFilter := { allow := [["B"]] } }
    let c' : Config := { c with labelFilter := { c.labelFilter with deny := [["B"]] } }
    ∃ fuel out out', traverse fuel .twoWay [⟨0⟩] c = some (.ok out) ∧ out.paths.length = 3 ∧
      (∃ fuel', traverse fuel' .twoWay [⟨0⟩] c' = some (.ok out')) ∧
      out'.paths = [.single ⟨0⟩] := by
  intro c c'
  have hrun : traverse 12 .twoWay [⟨0⟩] c =
      some (.ok ⟨[⟨⟨0⟩, []⟩, ⟨⟨0⟩, [⟨⟨0⟩, ⟨1⟩⟩]⟩, ⟨⟨0⟩, [⟨⟨1⟩, ⟨1⟩⟩]⟩], ⟨5, 3, 2, 2, false⟩⟩) := by
    decide +kernel
  have hu : c.uniqueness.IsLocal := trivial
  have hmore : c.DeniesMore c' := ⟨List.nil_subset _, fun _ => id, rfl⟩
  obtain ⟨fuel', out', hrun', hpaths⟩ := denying_removes_paths rfl hu hmore hrun
  refine ⟨12, _, out', hrun, rfl, ⟨fuel', hrun'⟩, hpaths.trans ?_⟩
  decide +kernel

end GraphWalk
