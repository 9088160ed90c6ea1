import GraphWalk.Proofs.Traversal.Path

/-!
What the uniqueness policies that look at nothing but the branch itself say of a hop after the hops
before it.
-/

namespace GraphWalk

/-- What a policy that looks at the branch alone says of a hop: its item is not on the path before
it, or not in the last steps of that path, as many as the window has. -/
def Uniqueness.Permits (u : Uniqueness) (window : ℕ) (p : Path) (hop : Hop) : Prop :=
  match u with
  | .once .node .path => hop.node ∉ p.nodes
  | .once .node .recent => hop.node ∉ p.nodes.reverse.take window
  | .once .relationship .path => hop.rel ∉ p.relationships
  | .once .relationship .recent => hop.rel ∉ p.relationships.reverse.take window
  | _ => True

/-- Policies that look at nothing but the branch itself. -/
def Uniqueness.IsLocal : Uniqueness → Prop
  | .unrestricted | .once _ .path | .once _ .recent => True
  | .once _ .global | .once _ .level => False

namespace Uniqueness.Item

lemma any_node (steps : List Step) (node : NodeId) :
    (steps.any fun s => Item.node.of? s == some node.val) = true ↔
      node ∈ steps.map Step.node := by
  simp [of?]

lemma any_relationship (steps : List Step) (rel : RelId) :
    (steps.any fun s => Item.relationship.of? s == some rel.val) = true ↔
      rel ∈ steps.filterMap Step.rel := by
  simp [of?]

end Uniqueness.Item

namespace Tracker

variable {t : Tracker} {p : Path} {hop : Hop}

/-- A tracker of such a policy has nothing to remember. -/
lemma accept_of_isLocal (h : t.policy.IsLocal) (lineage : List Step) (step : Step) (depth : ℕ) :
    (t.accept lineage step depth).2 = t := by
  obtain ⟨policy, window, marks⟩ := t
  rcases policy with _ | ⟨item, scope⟩
  · rfl
  · unfold accept
    rcases hi : item.of? step with _ | n
    · simp [hi]
    · cases scope <;> simp_all [Uniqueness.IsLocal]

lemma accept_start (h : t.policy.IsLocal) (node : NodeId) (depth : ℕ) :
    (t.accept [] ⟨node, none⟩ depth).1 = true := by
  obtain ⟨policy, window, marks⟩ := t
  rcases policy with _ | ⟨_ | _, _ | _ | _ | _⟩
  all_goals first | exact h.elim | simp [accept, Uniqueness.Item.of?]

lemma accept_hop (h : t.policy.IsLocal) (p : Path) (hop : Hop) (depth : ℕ) :
    (t.accept p.lineage ⟨hop.node, some hop.rel⟩ depth).1 = true ↔
      t.policy.Permits t.window p hop := by
  obtain ⟨policy, window, marks⟩ := t
  have hnode := fun steps => Uniqueness.Item.any_node steps hop.node
  have hrel := fun steps => Uniqueness.Item.any_relationship steps hop.rel
  rcases policy with _ | ⟨_ | _, _ | _ | _ | _⟩
  case unrestricted => simp [accept, Uniqueness.Permits]
  case once.node.path =>
    change (!_) = true ↔ hop.node ∉ p.nodes
    rw [Bool.not_eq_true', ← Bool.not_eq_true, hnode, p.map_node_lineage, List.mem_reverse]
  case once.node.recent =>
    change (!_) = true ↔ hop.node ∉ p.nodes.reverse.take window
    rw [Bool.not_eq_true', ← Bool.not_eq_true, hnode, List.map_take, p.map_node_lineage]
  case once.relationship.path =>
    have hall := p.filterMap_rel_lineage p.lineage.length
    have hlen : p.relationships.reverse.length ≤ p.lineage.length := by
      simp [Path.lineage, Path.relationships]
    rw [List.take_length, List.take_of_length_le hlen] at hall
    change (!_) = true ↔ hop.rel ∉ p.relationships
    rw [Bool.not_eq_true', ← Bool.not_eq_true, hrel, hall, List.mem_reverse]
  case once.relationship.recent =>
    change (!_) = true ↔ hop.rel ∉ p.relationships.reverse.take window
    rw [Bool.not_eq_true', ← Bool.not_eq_true, hrel, p.filterMap_rel_lineage]
  all_goals exact h.elim

end Tracker

end GraphWalk
