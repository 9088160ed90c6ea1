import GraphWalk.Proofs.Graph.Adjacency

/-!
Removing a node from adjacency lists that were built by additions and removals.

`Records` says what was added to the lists and is still live, whatever the order in which it came
there. Such lists show the live links, each relationship once; so removing a node takes away the
relationships at it and nothing else.
-/

namespace GraphWalk

namespace Adjacency

variable {a : Adjacency} {ls : List Link} {ends : RelId → Option (NodeId × NodeId)} {node : NodeId}

/-- The adjacency lists were built step by step, and the links of `ls` are live after that, in the
order in which they were added. A relationship is removed with its own end points if it is live, and
a node when the end points of all that is live are known. -/
inductive Records : Adjacency → List Link → Prop where
  | empty : Records .empty []
  | addNode {a : Adjacency} {ls : List Link} (h : Records a ls) (node : NodeId) :
    Records (a.addNode node) ls
  | addRelationship {a : Adjacency} {ls : List Link} (h : Records a ls) (l : Link)
    (hnew : l.rel ∉ ls.map Link.rel) :
    Records (a.addRelationship l.rel l.source l.target) (ls ++ [l])
  | removeRelationship {a : Adjacency} {ls : List Link} (h : Records a ls) (l : Link)
    (hl : ∀ m ∈ ls, m.rel = l.rel → m = l) :
    Records (a.removeRelationship l.rel l.source l.target) (ls.filter (·.rel ≠ l.rel))
  | removeNode {a : Adjacency} {ls : List Link} {ends : RelId → Option (NodeId × NodeId)}
    (h : Records a ls) (hends : Knows ends ls) (node : NodeId) :
    Records (a.removeNode node ends).2 (apart ls node)

/-- What is given when a node is removed from the lists of `a`, which show the links of `ls`, and
the lists `a'` after that. -/
structure Removes (a : Adjacency) (ls : List Link) (ends : RelId → Option (NodeId × NodeId))
    (node : NodeId) (rels : List RelId) (a' : Adjacency) : Prop where
  nodup : rels.Nodup
  mem_iff : ∀ rel, rel ∈ rels ↔ ∃ l ∈ ls, l.rel = rel ∧ (l.source = node ∨ l.target = node)
  /-- What leaves the node comes first, and of what arrives there the loops are not listed again. -/
  order : rels =
    a.outgoing node ++ (a.incoming node).filter fun rel => ends rel ≠ some (node, node)
  noLists : node ∉ a'.leaving ∧ node ∉ a'.arriving
  outgoing : ∀ other ≠ node, a'.outgoing other = (a.outgoing other).filter (· ∉ rels)
  incoming : ∀ other ≠ node, a'.incoming other = (a.incoming other).filter (· ∉ rels)

/-! ### What is live -/

/-- No relationship is live twice, and the lists show what is live. -/
lemma Records.nodup_and_shows (h : a.Records ls) : (ls.map Link.rel).Nodup ∧ a.Shows ls := by
  induction h with
  | empty => exact ⟨List.nodup_nil, shows_empty⟩
  | addNode h node ih => exact ⟨ih.1, ih.2.addNode node⟩
  | addRelationship h l hnew ih =>
    refine ⟨?_, ih.2.addRelationship l.rel l.source l.target⟩
    rw [List.map_append]
    exact ih.1.append (List.nodup_singleton _) (by simpa using hnew)
  | removeRelationship h l hl ih =>
    exact ⟨ih.1.sublist (List.filter_sublist.map _), ih.2.removeRelationship hl⟩
  | removeNode h hends node ih =>
    exact ⟨ih.1.sublist (List.filter_sublist.map _), (ih.2.removeNode ih.1 hends node).2⟩

/-! ### The node itself -/

lemma leaving_dropAtTarget (a : Adjacency) (rel : RelId) :
    (dropAtTarget ends a rel).leaving = a.leaving := by
  unfold dropAtTarget
  split <;> rfl

lemma arriving_dropAtSource (a : Adjacency) (rel : RelId) :
    (dropAtSource ends a rel).arriving = a.arriving := by
  unfold dropAtSource
  split <;> rfl

lemma mem_leaving_dropAtSource (a : Adjacency) (rel : RelId) :
    node ∈ (dropAtSource ends a rel).leaving ↔ node ∈ a.leaving := by
  unfold dropAtSource
  split
  · exact Std.TreeMap.mem_modify
  · exact Iff.rfl

lemma notMem_removeNode (a : Adjacency) (node : NodeId) :
    node ∉ (a.removeNode node ends).2.leaving ∧ node ∉ (a.removeNode node ends).2.arriving := by
  let a₀ : Adjacency := { a with nodes := a.nodes.erase node, leaving := a.leaving.erase node }
  let a₁ := (a.outgoing node).foldl (dropAtTarget ends) a₀
  let a₂ : Adjacency := { a₁ with arriving := a₁.arriving.erase node }
  have h₀ : node ∉ a₀.leaving := by simp [a₀]
  have h₁ : node ∉ a₁.leaving :=
    List.foldlRecOn (motive := fun b : Adjacency => node ∉ b.leaving) _ _ h₀ fun b hb rel _ => by
      rwa [leaving_dropAtTarget]
  have h₂ : node ∉ a₂.arriving := by simp [a₂]
  change node ∉ ((a₁.incoming node).foldl (dropAtSource ends) a₂).leaving ∧
    node ∉ ((a₁.incoming node).foldl (dropAtSource ends) a₂).arriving
  constructor
  · exact List.foldlRecOn (motive := fun b : Adjacency => node ∉ b.leaving) _ _ h₁
      fun b hb rel _ => by rwa [mem_leaving_dropAtSource]
  · exact List.foldlRecOn (motive := fun b : Adjacency => node ∉ b.arriving) _ _ h₂
      fun b hb rel _ => by rwa [arriving_dropAtSource]

/-! ### The other nodes -/

lemma map_filter_apart (hn : (ls.map Link.rel).Nodup) (node : NodeId) (p : Link → Bool) :
    ((apart ls node).filter p).map Link.rel =
      ((ls.filter p).map Link.rel).filter (· ∉ (touching ls node).map Link.rel) := by
  rw [apart, List.filter_filter]
  refine (filter_filter_map fun l hl => ?_).symm
  simp [rel_mem_touching hn hl]

/-- **Removal**: removing a node gives every live relationship at it once, those that leave it
first, and the lists of all other nodes lose these relationships and nothing else. -/
theorem removeNode_is_exact (h : a.Records ls) (hends : Knows ends ls) (node : NodeId) :
    a.Removes ls ends node (a.removeNode node ends).1 (a.removeNode node ends).2 := by
  obtain ⟨hn, hshows⟩ := h.nodup_and_shows
  obtain ⟨hrels, hafter⟩ := hshows.removeNode hn hends node
  have hperm := (touching_perm ls node).map Link.rel
  rw [hrels]
  refine ⟨?_, fun rel => ?_, ?_, notMem_removeNode a node, fun other _ => ?_, fun other _ => ?_⟩
  · exact hperm.nodup_iff.mpr (hn.sublist (List.filter_sublist.map _))
  · rw [hperm.mem_iff]
    simp [and_assoc, and_comm]
  · rw [touching, List.map_append, hshows.outgoing, hshows.incoming]
    congr 1
    refine (filter_filter_map fun l hl => ?_).symm
    rw [hends l hl]
    by_cases hs : l.source = node <;> by_cases ht : l.target = node <;> simp [hs, ht]
  · rw [hafter.outgoing, map_filter_apart hn, hshows.outgoing]
  · rw [hafter.incoming, map_filter_apart hn, hshows.incoming]

/-- A loop, two relationships side by side, one that comes back under a number that was used before,
and one that has nothing to do with the node. -/
theorem removeNode_is_exact_crowded :
    let ls : List Link := [⟨⟨10⟩, ⟨1⟩, ⟨1⟩⟩, ⟨⟨11⟩, ⟨1⟩, ⟨2⟩⟩, ⟨⟨12⟩, ⟨1⟩, ⟨2⟩⟩, ⟨⟨9⟩, ⟨2⟩, ⟨1⟩⟩,
      ⟨⟨13⟩, ⟨2⟩, ⟨3⟩⟩]
    let ends := fun rel => (ls.find? (·.rel = rel)).map fun l => (l.source, l.target)
    ∃ a : Adjacency, a.Records ls ∧ Knows ends ls ∧
      a.Removes ls ends ⟨1⟩ (a.removeNode ⟨1⟩ ends).1 (a.removeNode ⟨1⟩ ends).2 ∧
      (a.removeNode ⟨1⟩ ends).1 = [⟨10⟩, ⟨11⟩, ⟨12⟩, ⟨9⟩] ∧
      (a.removeNode ⟨1⟩ ends).2.outgoing ⟨2⟩ = [⟨13⟩] ∧
      (a.removeNode ⟨1⟩ ends).2.incoming ⟨2⟩ = [] := by
  intro ls ends
  have hused := Records.empty.addRelationship ⟨⟨9⟩, ⟨3⟩, ⟨1⟩⟩ (by decide)
  have hfree := (hused.addNode ⟨2⟩).removeRelationship ⟨⟨9⟩, ⟨3⟩, ⟨1⟩⟩ (by decide)
  have hloop := hfree.addRelationship ⟨⟨10⟩, ⟨1⟩, ⟨1⟩⟩ (by decide)
  have hfirst := hloop.addRelationship ⟨⟨11⟩, ⟨1⟩, ⟨2⟩⟩ (by decide)
  have hsecond := hfirst.addRelationship ⟨⟨12⟩, ⟨1⟩, ⟨2⟩⟩ (by decide)
  have hback := hsecond.addRelationship ⟨⟨9⟩, ⟨2⟩, ⟨1⟩⟩ (by decide)
  have hall := hback.addRelationship ⟨⟨13⟩, ⟨2⟩, ⟨3⟩⟩ (by decide)
  have hends : Knows ends ls := by unfold Knows; decide
  exact ⟨_, hall, hends, removeNode_is_exact hall hends ⟨1⟩, by decide +kernel, by decide +kernel,
    by decide +kernel⟩

end Adjacency

end GraphWalk
