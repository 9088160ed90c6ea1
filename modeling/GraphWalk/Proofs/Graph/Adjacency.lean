import GraphWalk.Graph.Adjacency
import Mathlib.Data.List.Nodup
import Mathlib.Tactic.Common

/-!
Adjacency lists as two views of one list of links.

A link is a relationship with its end points. The lists of a node hold the links that leave
it and those that arrive at it, in the order of the one list; every operation on the
adjacency lists is the plain operation on that list.
-/

namespace GraphWalk

/-- A relationship as adjacency lists know it. -/
structure Link where
  rel : RelId
  source : NodeId
  target : NodeId
deriving DecidableEq

namespace Adjacency

variable {a : Adjacency} {ls : List Link}

/-- The adjacency lists show the links of `ls`. -/
structure Shows (a : Adjacency) (ls : List Link) : Prop where
  outgoing : ∀ node, a.outgoing node = (ls.filter (·.source = node)).map Link.rel
  incoming : ∀ node, a.incoming node = (ls.filter (·.target = node)).map Link.rel

/-- The links that do not touch `node`. -/
def apart (ls : List Link) (node : NodeId) : List Link :=
  ls.filter fun l => l.source ≠ node ∧ l.target ≠ node

/-- The links that touch `node`: those that leave it, and then those that arrive from elsewhere. -/
def touching (ls : List Link) (node : NodeId) : List Link :=
  ls.filter (·.source = node) ++ ls.filter fun l => l.target = node ∧ l.source ≠ node

lemma shows_empty : empty.Shows [] := ⟨by simp, by simp⟩

lemma Shows.addNode (h : a.Shows ls) (node : NodeId) : (a.addNode node).Shows ls :=
  ⟨h.outgoing, h.incoming⟩

lemma Shows.addRelationship (h : a.Shows ls) (rel : RelId) (source target : NodeId) :
    (a.addRelationship rel source target).Shows (ls ++ [⟨rel, source, target⟩]) := by
  constructor <;> intro node
  · rw [outgoing_addRelationship, h.outgoing]
    by_cases hn : node = source
    · simp [hn]
    · simp [hn, Ne.symm hn]
  · rw [incoming_addRelationship, h.incoming]
    by_cases hn : node = target
    · simp [hn]
    · simp [hn, Ne.symm hn]

lemma eq_of_rel_eq (hn : (ls.map Link.rel).Nodup) {l m : Link} (hl : l ∈ ls) (hm : m ∈ ls)
    (h : l.rel = m.rel) : l = m :=
  List.inj_on_of_nodup_map hn hl hm h

lemma filter_map_rel (p : Link → Bool) (rel : RelId) :
    (((ls.filter p).map Link.rel).filter (· != rel)) =
      ((ls.filter (·.rel ≠ rel)).filter p).map Link.rel := by
  rw [List.filter_map, List.filter_filter, List.filter_filter]
  congr 1
  apply List.filter_congr
  intro l _
  by_cases h : l.rel = rel <;> simp [h]

lemma filter_map_rel_of_not {l : Link} (hl : ∀ m ∈ ls, m.rel = l.rel → m = l) {p : Link → Bool}
    (hp : p l = false) :
    (ls.filter p).map Link.rel = ((ls.filter (·.rel ≠ l.rel)).filter p).map Link.rel := by
  rw [List.filter_filter]
  congr 1
  apply List.filter_congr
  intro m hm
  by_cases h : m.rel = l.rel
  · rw [hl m hm h, hp]; rfl
  · simp [h]

lemma Shows.removeRelationship (h : a.Shows ls) {l : Link}
    (hl : ∀ m ∈ ls, m.rel = l.rel → m = l) :
    (a.removeRelationship l.rel l.source l.target).Shows (ls.filter (·.rel ≠ l.rel)) := by
  constructor <;> intro node
  · rw [Adjacency.removeRelationship, outgoing_dropIncoming, outgoing_dropOutgoing, h.outgoing]
    by_cases hs : node = l.source
    · rw [if_pos hs, filter_map_rel]
    · rw [if_neg hs, filter_map_rel_of_not hl (by simpa using Ne.symm hs)]
  · rw [Adjacency.removeRelationship, incoming_dropIncoming, incoming_dropOutgoing, h.incoming]
    by_cases ht : node = l.target
    · rw [if_pos ht, filter_map_rel]
    · rw [if_neg ht, filter_map_rel_of_not hl (by simpa using Ne.symm ht)]

/-! ### Removing a node -/

/-- The look-up `ends` gives the end points of every link. -/
def Knows (ends : RelId → Option (NodeId × NodeId)) (ls : List Link) : Prop :=
  ∀ l ∈ ls, ends l.rel = some (l.source, l.target)

variable {ends : RelId → Option (NodeId × NodeId)}

@[simp] lemma outgoing_foldl_dropAtTarget (rels : List RelId) (node : NodeId) :
    (rels.foldl (dropAtTarget ends) a).outgoing node = a.outgoing node := by
  induction rels generalizing a with
  | nil => rfl
  | cons rel rels ih =>
    rw [List.foldl_cons, ih, dropAtTarget]
    split <;> rfl

@[simp] lemma incoming_foldl_dropAtSource (rels : List RelId) (node : NodeId) :
    (rels.foldl (dropAtSource ends) a).incoming node = a.incoming node := by
  induction rels generalizing a with
  | nil => rfl
  | cons rel rels ih =>
    rw [List.foldl_cons, ih, dropAtSource]
    split <;> rfl

/-- Dropping one relationship after the other drops them all from a list. -/
lemma view_foldl (view : Adjacency → List RelId) {drop : Adjacency → RelId → Adjacency}
    {p : RelId → Bool}
    (h : ∀ a rel, view (drop a rel) = (view a).filter fun r => !(r == rel && p r))
    (rels : List RelId) (a : Adjacency) :
    view (rels.foldl drop a) = (view a).filter fun r => !(rels.contains r && p r) := by
  induction rels generalizing a with
  | nil => simp
  | cons rel rels ih =>
    rw [List.foldl_cons, ih, h, List.filter_filter]
    refine List.filter_congr fun r _ => ?_
    rw [List.contains_cons]
    cases r == rel <;> cases rels.contains r <;> cases p r <;> rfl

lemma incoming_foldl_dropAtTarget (rels : List RelId) (node : NodeId) :
    (rels.foldl (dropAtTarget ends) a).incoming node = (a.incoming node).filter fun r =>
      !(rels.contains r && (ends r).map Prod.snd == some node) := by
  refine view_foldl (·.incoming node) (fun a rel => ?_) rels a
  dsimp only [dropAtTarget]
  rcases he : ends rel with _ | ⟨source, target⟩
  · refine (List.filter_eq_self.mpr fun r _ => ?_).symm
    by_cases hr : r = rel <;> simp [hr, he]
  · rw [incoming_dropIncoming]
    by_cases ht : node = target
    · rw [if_pos ht]
      refine List.filter_congr fun r _ => ?_
      by_cases hr : r = rel
      · simp [hr, he, ht]
      · simp [bne, beq_false_of_ne hr]
    · rw [if_neg ht]
      refine (List.filter_eq_self.mpr fun r _ => ?_).symm
      by_cases hr : r = rel <;> simp [hr, he, Ne.symm ht]

lemma outgoing_foldl_dropAtSource (rels : List RelId) (node : NodeId) :
    (rels.foldl (dropAtSource ends) a).outgoing node = (a.outgoing node).filter fun r =>
      !(rels.contains r && (ends r).map Prod.fst == some node) := by
  refine view_foldl (·.outgoing node) (fun a rel => ?_) rels a
  dsimp only [dropAtSource]
  rcases he : ends rel with _ | ⟨source, target⟩
  · refine (List.filter_eq_self.mpr fun r _ => ?_).symm
    by_cases hr : r = rel <;> simp [hr, he]
  · rw [outgoing_dropOutgoing]
    by_cases hs : node = source
    · rw [if_pos hs]
      refine List.filter_congr fun r _ => ?_
      by_cases hr : r = rel
      · simp [hr, he, hs]
      · simp [bne, beq_false_of_ne hr]
    · rw [if_neg hs]
      refine (List.filter_eq_self.mpr fun r _ => ?_).symm
      by_cases hr : r = rel <;> simp [hr, he, Ne.symm hs]

lemma addNew_eq_append {xs ys : List RelId} (hn : ys.Nodup) (hd : ∀ y ∈ ys, y ∉ xs) :
    addNew xs ys = xs ++ ys := by
  induction ys generalizing xs with
  | nil => simp [addNew]
  | cons y ys ih =>
    obtain ⟨hy, hn⟩ := List.nodup_cons.mp hn
    have hx : y ∉ xs := hd y List.mem_cons_self
    have htail : ∀ z ∈ ys, z ∉ xs ++ [y] := by
      intro z hz hmem
      rcases List.mem_append.mp hmem with h | h
      · exact hd z (List.mem_cons_of_mem y hz) h
      · rw [List.mem_singleton] at h
        exact hy (h ▸ hz)
    rw [addNew, if_neg (by simpa using hx), ih hn htail, List.append_assoc, List.singleton_append]

lemma rel_mem_map_filter (hn : (ls.map Link.rel).Nodup) {l : Link} (hl : l ∈ ls)
    (p : Link → Bool) : l.rel ∈ (ls.filter p).map Link.rel ↔ p l = true := by
  constructor
  · intro h
    obtain ⟨m, hm, he⟩ := List.mem_map.mp h
    obtain ⟨hm, hp⟩ := List.mem_filter.mp hm
    rwa [eq_of_rel_eq hn hl hm he.symm]
  · intro h
    exact List.mem_map_of_mem (List.mem_filter.mpr ⟨hl, h⟩)

/-- Each link is met once: where it leaves, or else where it arrives. -/
lemma touching_perm (ls : List Link) (node : NodeId) :
    (touching ls node).Perm (ls.filter fun l => l.source = node ∨ l.target = node) := by
  have hsplit := List.filter_append_perm (fun l : Link => decide (l.source = node))
    (ls.filter fun l => l.source = node ∨ l.target = node)
  rw [List.filter_filter, List.filter_filter] at hsplit
  convert hsplit using 1
  unfold touching
  congr 1
  · exact List.filter_congr fun l _ => by by_cases hs : l.source = node <;> simp [hs]
  · exact List.filter_congr fun l _ => by by_cases hs : l.source = node <;> simp [hs]

lemma rel_mem_touching (hn : (ls.map Link.rel).Nodup) {l : Link} (hl : l ∈ ls) (node : NodeId) :
    l.rel ∈ (touching ls node).map Link.rel ↔ l.source = node ∨ l.target = node := by
  rw [((touching_perm ls node).map Link.rel).mem_iff, rel_mem_map_filter hn hl, decide_eq_true_iff]

lemma filter_filter_map {p : Link → Bool} {q : RelId → Bool} {s : Link → Bool}
    (h : ∀ l ∈ ls, s l = (p l && q l.rel)) :
    ((ls.filter p).map Link.rel).filter q = (ls.filter s).map Link.rel := by
  rw [List.filter_map, List.filter_filter]
  congr 1
  apply List.filter_congr
  intro l hl
  rw [h l hl, Bool.and_comm]
  rfl

lemma getD_erase_nil (m : Std.TreeMap NodeId (List RelId)) (node other : NodeId) :
    (m.erase node).getD other [] = if other = node then [] else m.getD other [] := by
  rw [Std.TreeMap.getD_erase]
  simp only [Std.LawfulEqOrd.compare_eq_iff_eq]
  by_cases h : node = other
  · rw [if_pos h, if_pos h.symm]
  · rw [if_neg h, if_neg (Ne.symm h)]

/-- Removing a node takes away the links that touch it, and gives their relationships. -/
theorem Shows.removeNode (h : a.Shows ls) (hn : (ls.map Link.rel).Nodup) (hk : Knows ends ls)
    (node : NodeId) :
    (a.removeNode node ends).1 = (touching ls node).map Link.rel ∧
      (a.removeNode node ends).2.Shows (apart ls node) := by
  let a₁ := (a.outgoing node).foldl (dropAtTarget ends)
    { a with nodes := a.nodes.erase node, leaving := a.leaving.erase node }
  let a₂ := (a₁.incoming node).foldl (dropAtSource ends)
    { a₁ with arriving := a₁.arriving.erase node }
  -- after the first pass the incoming lists hold no link that leaves `node`
  have hin : ∀ other, a₁.incoming other =
      (ls.filter fun l => l.target = other ∧ l.source ≠ node).map Link.rel := by
    intro other
    have h₁ := h.incoming other
    rw [incoming_foldl_dropAtTarget]
    change (a.incoming other).filter _ = _
    rw [h₁, h.outgoing]
    refine filter_filter_map fun l hl => ?_
    have hmem := rel_mem_map_filter hn hl (·.source = node)
    by_cases hs : l.source = node <;> by_cases ht : l.target = other <;>
      simp_all [hk l hl]
  have hout : ∀ other, a₁.outgoing other = if other = node then [] else a.outgoing other := by
    intro other
    rw [outgoing_foldl_dropAtTarget]
    exact getD_erase_nil a.leaving node other
  change addNew (a.outgoing node) (a₁.incoming node) = _ ∧ a₂.Shows _
  refine ⟨?_, ?_, ?_⟩
  · have hd : ∀ r ∈ a₁.incoming node, r ∉ a.outgoing node := by
      intro r hr hl
      rw [hin] at hr
      obtain ⟨l, hmem, rfl⟩ := List.mem_map.mp hr
      obtain ⟨hmem, hp⟩ := List.mem_filter.mp hmem
      rw [h.outgoing, rel_mem_map_filter hn hmem] at hl
      simp_all
    have hn₁ : (a₁.incoming node).Nodup := by
      rw [hin]
      exact hn.sublist (List.filter_sublist.map _)
    rw [addNew_eq_append hn₁ hd, h.outgoing, hin, touching, List.map_append]
  · intro other
    rw [outgoing_foldl_dropAtSource]
    change (a₁.outgoing other).filter _ = _
    rw [hout, hin, apart, List.filter_filter]
    by_cases ho : other = node
    · rw [if_pos ho, List.filter_nil, eq_comm, List.map_eq_nil_iff, List.filter_eq_nil_iff]
      simp_all
    · rw [if_neg ho, h.outgoing]
      refine filter_filter_map fun l hl => ?_
      have hmem := rel_mem_map_filter hn hl fun l => l.target = node ∧ l.source ≠ node
      by_cases hs : l.source = other <;> by_cases ht : l.target = node <;>
        simp_all [hk l hl]
  · intro other
    rw [incoming_foldl_dropAtSource, apart, List.filter_filter]
    refine (getD_erase_nil a₁.arriving node other).trans ?_
    change (if other = node then [] else a₁.incoming other) = _
    by_cases ho : other = node
    · rw [if_pos ho, eq_comm, List.map_eq_nil_iff, List.filter_eq_nil_iff]
      simp_all
    · rw [if_neg ho, hin]
      congr 1
      refine List.filter_congr fun l _ => ?_
      by_cases ht : l.target = other <;> simp_all

end Adjacency

end GraphWalk
