import GraphWalk.Proofs.Graph.Reload
import GraphWalk.Proofs.Traversal.Rows

/-!
Traversals of a graph that was written and read back.

A traversal asks a graph for nodes and for the relationships at a node, and for nothing else. So two
graphs that give the same answers to these questions are traversed alike.
-/

namespace GraphWalk

open Traversal

namespace Graph.Alike

variable {g g' : Graph} {c : Config}

section Search

variable (h : g.Alike g')
include h

lemma judge_eq (p : Path) : c.judge g' p = c.judge g p := by
  rw [Config.judge, Config.judge, Graph.labels, Graph.labels, h.node]

lemma continues_eq (p : Path) : c.continues g' p = c.continues g p := by
  rw [Config.continues, Config.continues, h.judge_eq]

lemma successors_eq (p : Path) : c.successors g' p = c.successors g p := by
  have hexpand : ∀ node, c.relationshipFilter.expand g' node =
      c.relationshipFilter.expand g node := by
    intro node
    simp only [RelationshipFilter.expand, h.incident]
  simp only [Config.successors, Config.children, Config.nextHops, Config.offered, h.continues_eq,
    hexpand]

lemma advance_eq : Search.advance g' c = Search.advance g c := by
  funext x p rest
  simp only [Search.advance, Search.expand, h.successors_eq, h.continues_eq]

lemma found_eq : Search.found g' c = Search.found g c := by
  funext x
  simp only [Search.found, h.judge_eq]

lemma output_eq : Search.output g' c = Search.output g c := by
  funext x
  simp only [Search.output, Search.stats, h.found_eq, h.judge_eq]

lemma step_eq (x : Search) : x.step g' c = x.step g c := by
  rw [Search.step, Search.step, h.found_eq, h.advance_eq]

lemma run_eq (fuel : ℕ) (x : Search) : Search.run g' c fuel x = Search.run g c fuel x := by
  induction fuel generalizing x with
  | zero => rfl
  | succ fuel ih => simp only [Search.run_succ, h.step_eq, ih]

lemma check_eq (starts : List NodeId) : check g' starts c = check g starts c := by
  simp only [check, h.node]

theorem traverse_eq (fuel : ℕ) (starts : List NodeId) :
    traverse fuel g' starts c = traverse fuel g starts c := by
  rcases hcheck : check g starts c with e | ⟨⟩
  · rw [traverse, traverse, h.check_eq, hcheck]
  · have hcheck' : check g' starts c = .ok () := (h.check_eq starts).trans hcheck
    rw [traverse_eq_search hcheck, traverse_eq_search hcheck', h.run_eq, h.output_eq]

lemma cover_eq (f : RelationshipFilter) (nodes : List NodeId) :
    cover g' f nodes = cover g f nodes := by
  simp only [cover, h.incident]

theorem answer_eq (p : Procedure) (fuel : ℕ) (starts : List NodeId) :
    p.answer fuel g' starts c = p.answer fuel g starts c := by
  simp only [Procedure.answer, Executor.answer, expandPaths, subgraphNodes, subgraphAll,
    spanningTree, traverseOnce, spanned, h.traverse_eq, h.cover_eq]

end Search

end Graph.Alike

/-- **Reloading**: a graph whose ids are words comes back from the JSON of its snapshot with its
records in order of their ids, and if the store has numbered its relationships, it is traversed
as before. -/
theorem Graph.reload_restores {g : Graph} (hg : g.Reachable) (hw : g.FitsWords) :
    ∃ g', g.reload = some (.ok g') ∧ g.Restores g' ∧
      ∀ ops, NumbersRelationships ops → empty.after ops = g →
        (∀ fuel starts c, traverse fuel g' starts c = traverse fuel g starts c) ∧
        ∀ (p : Procedure) fuel starts c, p.answer fuel g' starts c = p.answer fuel g starts c := by
  obtain ⟨g', hreload, hrestores⟩ := hg.exists_reload hw
  refine ⟨g', hreload, hrestores, ?_⟩
  rintro ops hops rfl
  have halike := hrestores.alike hops
  exact ⟨fun fuel starts c => halike.traverse_eq fuel starts,
    fun p fuel starts c => halike.answer_eq p fuel starts⟩

theorem Graph.reload_restores_twoWay :
    ∃ g', twoWay.reload = some (.ok g') ∧ twoWay.Restores g' ∧
      ∀ fuel starts c, traverse fuel g' starts c = traverse fuel twoWay starts c := by
  have hg : twoWay.Reachable := reachable_after_empty _
  have hw : twoWay.FitsWords := hg.fitsWords (by decide +kernel) (by decide +kernel)
  obtain ⟨g', hreload, hrestores, hsame⟩ := reload_restores hg hw
  have hops : NumbersRelationships [.addNode ["A"] [], .addNode ["B"] [],
      .addRelationship ⟨0⟩ ⟨1⟩ "R", .addRelationship ⟨1⟩ ⟨0⟩ "S"] := by
    simp [NumbersRelationships]
  exact ⟨g', hreload, hrestores, (hsame _ hops rfl).1⟩

end GraphWalk
