import GraphWalk.Path
import GraphWalk.Traversal.Tracker
import Mathlib.Data.List.Induction
import Mathlib.Data.Nat.Basic
import Mathlib.Tactic.Common

/-!
Paths hop by hop: what holds of every hop after the hops before it, and the steps of a path as a
tracker is shown them.
-/

namespace GraphWalk

namespace Path

/-- The path up to its `k`-th hop. -/
def upTo (p : Path) (k : ℕ) : Path := ⟨p.start, p.hops.take k⟩

/-- Every hop of the path may follow the path up to it. -/
def EachHop (P : Path → Hop → Prop) (p : Path) : Prop :=
  ∀ k hop, p.hops[k]? = some hop → P (p.upTo k) hop

/-- The steps of the path from its end back to its start. -/
def lineage (p : Path) : List Step :=
  (p.hops.map fun hop => ⟨hop.node, some hop.rel⟩).reverse ++ [⟨p.start, none⟩]

/-- The last step of the path. -/
def step (p : Path) : Step := ⟨p.last, p.hops.getLast?.map Hop.rel⟩

@[simp] lemma start_push (p : Path) (hop : Hop) : (p.push hop).start = p.start := rfl

@[simp] lemma hops_push (p : Path) (hop : Hop) : (p.push hop).hops = p.hops ++ [hop] := rfl

@[simp] lemma start_single (node : NodeId) : (single node).start = node := rfl

@[simp] lemma hops_single (node : NodeId) : (single node).hops = [] := rfl

@[simp] lemma last_single (node : NodeId) : (single node).last = node := rfl

@[simp] lemma length_single (node : NodeId) : (single node).length = 0 := rfl

@[simp] lemma length_push (p : Path) (hop : Hop) : (p.push hop).length = p.length + 1 := by
  simp [length]

@[simp] lemma lineage_single (node : NodeId) : (single node).lineage = [⟨node, none⟩] := rfl

@[simp] lemma lineage_push (p : Path) (hop : Hop) :
    (p.push hop).lineage = ⟨hop.node, some hop.rel⟩ :: p.lineage := by
  simp [lineage]

@[simp] lemma step_single (node : NodeId) : (single node).step = ⟨node, none⟩ := rfl

@[simp] lemma step_push (p : Path) (hop : Hop) : (p.push hop).step = ⟨hop.node, some hop.rel⟩ := by
  simp [step]

lemma push_inj {p q : Path} {hop hop' : Hop} (h : p.push hop = q.push hop') :
    p = q ∧ hop = hop' := by
  obtain ⟨start, hops⟩ := p
  obtain ⟨start', hops'⟩ := q
  simpa [push, and_assoc] using h

lemma single_ne_push (node : NodeId) (p : Path) (hop : Hop) : single node ≠ p.push hop := by
  intro h
  have := congrArg length h
  simp at this

lemma eq_single_or_push (p : Path) :
    (∃ node, p = single node) ∨ ∃ (q : Path) (hop : Hop), p = q.push hop := by
  obtain ⟨start, hops⟩ := p
  rcases List.eq_nil_or_concat hops with rfl | ⟨hops, hop, rfl⟩
  · exact .inl ⟨start, rfl⟩
  · exact .inr ⟨⟨start, hops⟩, hop, by simp [push]⟩

@[elab_as_elim] lemma pushRec {motive : Path → Prop} (single : ∀ node, motive (single node))
    (push : ∀ p hop, motive p → motive (p.push hop)) (p : Path) : motive p := by
  obtain ⟨start, hops⟩ := p
  induction hops using List.reverseRecOn with
  | nil => exact single start
  | append_singleton hops hop ih => exact push ⟨start, hops⟩ hop ih

@[simp] lemma eachHop_single (P : Path → Hop → Prop) (node : NodeId) :
    (single node).EachHop P := by
  intro k hop h
  simp at h

@[simp] lemma upTo_length (p : Path) : p.upTo p.length = p := by
  simp [upTo, length]

lemma upTo_of_length_le {p : Path} {k : ℕ} (hk : p.length ≤ k) : p.upTo k = p := by
  rw [upTo, List.take_of_length_le hk]

lemma upTo_push_of_le (p : Path) (hop : Hop) {k : ℕ} (hk : k ≤ p.length) :
    (p.push hop).upTo k = p.upTo k := by
  simp [upTo, push, List.take_append_of_le_length hk]

lemma length_upTo (p : Path) {k : ℕ} (hk : k ≤ p.length) : (p.upTo k).length = k := by
  simp only [upTo, length, List.length_take]
  exact Nat.min_eq_left hk

@[simp] lemma eachHop_push {P : Path → Hop → Prop} {p : Path} {hop : Hop} :
    (p.push hop).EachHop P ↔ p.EachHop P ∧ P p hop := by
  constructor
  · intro h
    refine ⟨fun k hop' hk => ?_, ?_⟩
    · have hlt : k < p.hops.length := (List.getElem?_eq_some_iff.mp hk).1
      have := h k hop' (by rw [hops_push, List.getElem?_append_left hlt, hk])
      rwa [upTo_push_of_le p hop (Nat.le_of_lt hlt)] at this
    · have := h p.length hop (by simp [length])
      rwa [upTo_push_of_le p hop le_rfl, upTo_length] at this
  · rintro ⟨h, hlast⟩ k hop' hk
    rcases lt_trichotomy k p.hops.length with hlt | rfl | hgt
    · rw [hops_push, List.getElem?_append_left hlt] at hk
      rw [upTo_push_of_le p hop (Nat.le_of_lt hlt)]
      exact h k hop' hk
    · rw [hops_push, List.getElem?_concat_length, Option.some.injEq] at hk
      subst hk
      change P ((p.push hop).upTo p.length) hop
      rwa [upTo_push_of_le p hop le_rfl, upTo_length]
    · rw [hops_push, List.getElem?_eq_none (by simp; omega)] at hk
      cases hk

lemma getElem?_nodes {p : Path} {k : ℕ} {node : NodeId} :
    p.nodes[k]? = some node ↔ k ≤ p.length ∧ (p.upTo k).last = node := by
  induction p using pushRec generalizing k with
  | single start => cases k <;> simp [upTo, last]
  | push p hop ih =>
    have hlen : p.nodes.length = p.length + 1 := by simp [nodes, length]
    rw [nodes_push]
    rcases lt_trichotomy k (p.length + 1) with hlt | rfl | hgt
    · rw [List.getElem?_append_left (by omega), ih, length_push,
        upTo_push_of_le p hop (Nat.le_of_lt_succ hlt)]
      exact and_congr_left fun _ => ⟨fun h => Nat.le_succ_of_le h, fun _ => Nat.le_of_lt_succ hlt⟩
    · rw [← hlen, List.getElem?_concat_length, hlen, ← length_push p hop, upTo_length, last_push]
      simp
    · rw [List.getElem?_eq_none (by simp; omega), length_push]
      exact iff_of_false (by simp) fun h => by omega

lemma map_node_lineage (p : Path) : p.lineage.map Step.node = p.nodes.reverse := by
  induction p using pushRec with
  | single node => rfl
  | push p hop ih => simp [ih]

lemma filterMap_rel_lineage (p : Path) (w : ℕ) :
    (p.lineage.take w).filterMap Step.rel = p.relationships.reverse.take w := by
  induction p using pushRec generalizing w with
  | single node => cases w <;> simp
  | push p hop ih => cases w <;> simp [ih]

end Path

end GraphWalk
