import GraphWalk.Traversal.Evaluation
import Mathlib.Data.Nat.Basic
import Mathlib.Tactic.Common

/-!
When an evaluation reports a path and when it continues one, in terms of the rules that the node
matches; and how little it asks about the length of the path.
-/

namespace GraphWalk

namespace Config

variable (c : Config) (node : NodeId) (labels : List String) (depth : ℕ)

def denies : Bool := c.labelFilter.matchesRule .deny labels || c.nodeFilter.denies node

def isTerminator : Bool :=
  c.labelFilter.matchesRule .terminate labels || c.nodeFilter.isTerminator node

def isEndNode : Bool := c.labelFilter.matchesRule .endNode labels || c.nodeFilter.isEndNode node

/-- Whether the node passes both allowlists. -/
def allows : Bool :=
  (!c.labelFilter.hasAllowlist || c.labelFilter.matchesRule .allow labels) &&
    c.nodeFilter.allows node

/-- Paths of this length are not asked about the node at their end: it is a start, and starts are
not filtered. -/
def Bypasses : Prop := depth = 0 ∧ c.filterStartNode = false

instance : Decidable (c.Bypasses depth) := inferInstanceAs (Decidable (_ ∧ _))

variable {c node labels depth}

lemma opinion?_startNode : Stage.startNode.opinion? c node labels depth =
    if c.Bypasses depth then
      some (if 0 < c.minLevel ∨ c.endNodeMode then .excludeAndExpand else .includeAndExpand)
    else none := by
  by_cases h : c.Bypasses depth
  · rw [if_pos h, Stage.opinion?, if_neg (by simp [h.1, h.2])]
    split <;> rfl
  · have hasked : 0 < depth ∨ c.filterStartNode = true := by
      simpa [Bypasses, Nat.pos_iff_ne_zero, imp_iff_not_or] using h
    rw [if_neg h, Stage.opinion?, if_pos hasked]

lemma getD_findSome?_cons {α β : Type} (f : α → Option β) (a : α) (as : List α) (b : β) :
    ((a :: as).findSome? f).getD b = (f a).getD ((as.findSome? f).getD b) := by
  rw [List.findSome?_cons]
  cases f a <;> rfl

lemma getD_ite {α : Type} (P : Prop) [Decidable P] (a b : Option α) (d : α) :
    (if P then a else b).getD d = if P then a.getD d else b.getD d := by
  split <;> rfl

lemma evaluate_eq : c.evaluate node labels depth =
    if c.Bypasses depth then
      if 0 < c.minLevel ∨ c.endNodeMode then .excludeAndExpand else .includeAndExpand
    else if c.denies node labels then .prune
    else if depth < c.minLevel then .excludeAndExpand
    else if c.isTerminator node labels then .terminate
    else if c.isEndNode node labels then .includeAndExpand
    else if !c.allows node labels then .prune
    else if c.endNodeMode && !c.hasAllowlist then .excludeAndExpand
    else .includeAndExpand := by
  rw [evaluate, Stage.order]
  simp only [getD_findSome?_cons, opinion?_startNode]
  simp only [Stage.opinion?, getD_ite, Option.getD_some, Option.getD_none]
  rfl

lemma expands_evaluate_iff : (c.evaluate node labels depth).expands = true ↔
    c.Bypasses depth ∨ c.denies node labels = false ∧ (depth < c.minLevel ∨
      c.isTerminator node labels = false ∧
        (c.isEndNode node labels = true ∨ c.allows node labels = true)) := by
  rw [evaluate_eq]
  split_ifs <;> simp_all [Evaluation.expands]

lemma includes_evaluate_iff : (c.evaluate node labels depth).includes = true ↔
    if c.Bypasses depth then c.minLevel = 0 ∧ c.endNodeMode = false
    else c.denies node labels = false ∧ c.minLevel ≤ depth ∧
      (c.isTerminator node labels = true ∨ c.isEndNode node labels = true ∨
        c.allows node labels = true ∧ (c.endNodeMode = true → c.hasAllowlist = true)) := by
  rw [evaluate_eq, ← not_lt]
  split_ifs <;> simp_all [Evaluation.includes, -not_lt, Nat.pos_iff_ne_zero, imp_iff_not_or]

/-- The shorter a path, the sooner it is continued at a node. -/
lemma expands_evaluate_of_le {depth' : ℕ} (hle : depth ≤ depth')
    (h : (c.evaluate node labels depth').expands = true) :
    (c.evaluate node labels depth).expands = true := by
  rw [expands_evaluate_iff] at h ⊢
  rcases h with ⟨hzero, hfilter⟩ | ⟨hdeny, hmin | hrules⟩
  · exact .inl ⟨by omega, hfilter⟩
  · exact .inr ⟨hdeny, .inl (by omega)⟩
  · exact .inr ⟨hdeny, .inr hrules⟩

/-- Paths that have a hop and are long enough to be results are not told apart by their lengths. -/
lemma evaluate_eq_of_minLevel_le {depth' : ℕ} (hpos : 0 < depth) (hpos' : 0 < depth')
    (hmin : c.minLevel ≤ depth) (hmin' : c.minLevel ≤ depth') :
    c.evaluate node labels depth = c.evaluate node labels depth' := by
  have hasked : ∀ {d : ℕ}, 0 < d → ¬ c.Bypasses d := fun hd hb => absurd hb.1 (Nat.ne_of_gt hd)
  rw [evaluate_eq, evaluate_eq, if_neg (hasked hpos), if_neg (hasked hpos'),
    if_neg (Nat.not_lt.mpr hmin), if_neg (Nat.not_lt.mpr hmin')]

lemma expandsAt_of_le {depth' : ℕ} (hle : depth ≤ depth') (h : c.expandsAt depth' = true) :
    c.expandsAt depth = true := by
  unfold expandsAt at h ⊢
  rcases hmax : c.maxLevel with _ | bound
  · rfl
  · simp only [hmax, Option.all_some, decide_eq_true_eq] at h ⊢
    omega

variable (c node labels)

lemma findSome?_order (depth : ℕ) :
    Stage.order.findSome? (fun stage => stage.opinion? c node labels depth) =
      some (c.evaluate node labels depth) := by
  have hlast := Stage.isSome_opinion?_allowlist c node labels depth
  have hsome : (Stage.order.findSome? fun stage =>
      stage.opinion? c node labels depth).isSome = true := by
    rw [List.findSome?_isSome_iff]
    exact ⟨.allowlist, by decide, hlast⟩
  obtain ⟨e, he⟩ := Option.isSome_iff_exists.mp hsome
  rw [evaluate, he, Option.getD_some]

/-- **Lengths**: a node at which some path is continued continues all shorter paths; some stage has
an opinion on every path, and the first one decides; and of the paths that have a hop and are long
enough to be results the node tells none apart. -/
theorem expansion_is_antitone :
    (∀ depth depth', depth ≤ depth' → (c.evaluate node labels depth').expands = true →
        (c.evaluate node labels depth).expands = true) ∧
      (∀ depth, Stage.order.findSome? (fun stage => stage.opinion? c node labels depth) =
        some (c.evaluate node labels depth)) ∧
      ∀ depth depth', max 1 c.minLevel ≤ depth → max 1 c.minLevel ≤ depth' →
        c.evaluate node labels depth = c.evaluate node labels depth' := by
  refine ⟨fun depth depth' hle h => expands_evaluate_of_le hle h, findSome?_order c node labels,
    fun depth depth' hle hle' => ?_⟩
  obtain ⟨hpos, hmin⟩ := Nat.max_le.mp hle
  obtain ⟨hpos', hmin'⟩ := Nat.max_le.mp hle'
  exact evaluate_eq_of_minLevel_le hpos hpos' hmin hmin'

/-- A terminator is passed on the way to the least level, and by no longer path. -/
theorem expansion_is_antitone_terminator :
    let c : Config := { labelFilter := { terminate := [["A"]] }, minLevel := 2 }
    (0 ≤ 1 ∧ (c.evaluate ⟨7⟩ ["A"] 1).expands = true ∧ (c.evaluate ⟨7⟩ ["A"] 0).expands = true) ∧
      (c.evaluate ⟨7⟩ ["A"] 1 = .excludeAndExpand ∧ c.evaluate ⟨7⟩ ["A"] 2 = .terminate) ∧
      (max 1 c.minLevel ≤ 2 ∧ max 1 c.minLevel ≤ 5 ∧
        c.evaluate ⟨7⟩ ["A"] 2 = c.evaluate ⟨7⟩ ["A"] 5) := by
  intro c
  obtain ⟨hexpands, -, hsame⟩ := expansion_is_antitone c ⟨7⟩ ["A"]
  have hone : (c.evaluate ⟨7⟩ ["A"] 1).expands = true := by decide
  have htwo : max 1 c.minLevel ≤ 2 := by decide
  have hfive : max 1 c.minLevel ≤ 5 := by decide
  exact ⟨⟨Nat.zero_le 1, hone, hexpands 0 1 (Nat.zero_le 1) hone⟩, by decide,
    htwo, hfive, hsame 2 5 htwo hfive⟩

end Config

end GraphWalk
