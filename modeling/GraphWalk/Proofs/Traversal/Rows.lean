import GraphWalk.Executor
import GraphWalk.Proofs.Traversal.Unfolding

/-!
Every procedure shapes the output of one traversal into rows.

A procedure that reaches every node once checks the least level first and then changes order and
policy; the others take the settings as they are.
-/

namespace GraphWalk

open Traversal

variable {fuel : ℕ} {g : Graph} {starts : List NodeId} {c : Config} {p : Procedure}

/-- The settings under which a procedure runs its traversal. -/
def Procedure.settings (p : Procedure) (c : Config) : Config :=
  if p.isSubgraph then c.nodeOnce else c

/-- What a procedure answers; nothing if the traversal takes more than `fuel` steps. -/
def Procedure.answer (p : Procedure) (fuel : ℕ) (g : Graph) (starts : List NodeId) (c : Config) :
    Option (Except WalkError Answer) :=
  ({ graph := g } : Executor).answer fuel p c starts

lemma checkMinLevel_of_le (h : c.minLevel ≤ 1) :
    p.checkMinLevel (min c.minLevel (Word.signedLimit - 1) : ℕ) = .ok () := by
  have hmin : min c.minLevel (Word.signedLimit - 1) = c.minLevel :=
    Nat.min_eq_left (le_trans h (by decide))
  rw [Procedure.checkMinLevel_eq_ok_iff, hmin]
  omega

lemma checkMinLevel_of_lt (hp : p.isSubgraph = true) (h : 1 < c.minLevel) :
    p.checkMinLevel (min c.minLevel (Word.signedLimit - 1) : ℕ) =
      .error (.invalidMinLevel p (min c.minLevel (Word.signedLimit - 1) : ℕ)) := by
  have hlimit : 1 < Word.signedLimit - 1 := by decide
  have hmin : 1 < min c.minLevel (Word.signedLimit - 1) := Nat.lt_min.mpr ⟨h, hlimit⟩
  unfold Procedure.checkMinLevel
  rw [if_pos]
  simp only [hp, Bool.true_and, Bool.not_eq_true', Bool.or_eq_false_iff, beq_eq_false_iff_ne]
  omega

lemma traverseOnce_of_le (h : c.minLevel ≤ 1) :
    traverseOnce p fuel g starts c = traverse fuel g starts c.nodeOnce := by
  rw [traverseOnce, checkMinLevel_of_le h]

/-- A level that is refused is refused before anything else. -/
lemma traverseOnce_of_lt (hp : p.isSubgraph = true) (h : 1 < c.minLevel) :
    traverseOnce p fuel g starts c =
      some (.error (.invalidMinLevel p (min c.minLevel (Word.signedLimit - 1) : ℕ))) := by
  rw [traverseOnce, checkMinLevel_of_lt hp h]

lemma traverse_of_traverseOnce {out : Output} (h : traverseOnce p fuel g starts c = some (.ok out)) :
    traverse fuel g starts c.nodeOnce = some (.ok out) := by
  unfold traverseOnce at h
  split at h
  · cases h
  · exact h

lemma Except.map_map_eq {ε α β γ : Type} (f : α → β) (f' : β → γ) (r : Except ε α) :
    (r.map f).map f' = r.map (f' ∘ f) := by
  cases r <;> rfl

/-- What spans nothing is answered like nothing. -/
lemma rows_spanned (g : Graph) (f : RelationshipFilter) (optional : Bool) (nodes : List NodeId) :
    rows optional (spanned g f nodes) =
      if nodes = [] then rows optional [] else [some ⟨nodes, cover g f nodes⟩] := by
  cases nodes <;> rfl

/-- The answer that a procedure makes of the output of its traversal. -/
def Procedure.shapes (p : Procedure) (g : Graph) (c : Config) (out : Output) : Answer :=
  match p with
  | .expand | .shaped .paths | .shaped .tree => .paths (rows c.optional out.paths)
  | .shaped .nodes => .nodes (rows c.optional out.reached)
  | .shaped .subgraph => .subgraphs (rows c.optional (spanned g c.relationshipFilter out.reached))

/-- A procedure whose level is not refused answers with its shape of one traversal. -/
lemma answer_of_le (h : p.isSubgraph = true → c.minLevel ≤ 1) :
    p.answer fuel g starts c = (traverse fuel g starts (p.settings c)).map (·.map (p.shapes g c)) := by
  have hmap : ∀ {α : Type} (o : Option (Except WalkError Output)) (f : Output → α) (f' : α → Answer),
      (o.map (·.map f)).map (·.map f') = o.map (·.map (f' ∘ f)) := by
    intro α o f f'
    rw [Option.map_map]
    congr 1
    funext r
    exact Except.map_map_eq f f' r
  rcases p with _ | _ | _ | _ | _
  · exact hmap _ _ _
  · exact hmap _ _ _
  · rw [Procedure.answer, Executor.answer, subgraphNodes, traverseOnce_of_le (h rfl)]
    exact hmap _ _ _
  · rw [Procedure.answer, Executor.answer, subgraphAll, traverseOnce_of_le (h rfl)]
    exact hmap _ _ _
  · rw [Procedure.answer, Executor.answer, spanningTree, traverseOnce_of_le (h rfl)]
    exact hmap _ _ _

lemma answer_of_lt (hp : p.isSubgraph = true) (h : 1 < c.minLevel) :
    p.answer fuel g starts c =
      some (.error (.invalidMinLevel p (min c.minLevel (Word.signedLimit - 1) : ℕ))) := by
  rcases p with _ | _ | _ | _ | _
  · cases hp
  · cases hp
  · rw [Procedure.answer, Executor.answer, subgraphNodes, traverseOnce_of_lt hp h]
    rfl
  · rw [Procedure.answer, Executor.answer, subgraphAll, traverseOnce_of_lt hp h]
    rfl
  · rw [Procedure.answer, Executor.answer, spanningTree, traverseOnce_of_lt hp h]
    rfl

end GraphWalk
