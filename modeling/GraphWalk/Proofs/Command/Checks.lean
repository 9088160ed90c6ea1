import GraphWalk.Expander
import GraphWalk.Proofs.Options.Resolution
import GraphWalk.Proofs.Traversal.Cancellation
import GraphWalk.Proofs.Traversal.Termination

/-!
All that a command can be refused for is found out before the first node is visited.

A command is checked in turn for its levels or options, for the settings that these ask for and for
its starts. A traversal looks at the sample, the starts and the least level once more. The checks
before have left it nothing to object to, so behind them a command fails in one way only: the caller
withdraws it.
-/

namespace GraphWalk

open Traversal

variable {g : Graph} {p : Procedure} {c : Config} {starts : List NodeId} {fuel : ℕ}

/-! ### What a procedure accepts -/

/-- Settings and starts to which a procedure does not object. -/
structure Procedure.Accepts (p : Procedure) (g : Graph) (c : Config) (starts : List NodeId) :
    Prop where
  minLevel : p.isSubgraph = true → c.minLevel ≤ 1
  sample : c.sample ≠ some 0
  starts : ∀ node ∈ starts, (g.node? node).isSome

lemma Procedure.settings_withdrawn (p : Procedure) (c : Config) (k : Cancellation) :
    p.settings (c.withdrawn k) = (p.settings c).withdrawn k := by
  unfold Procedure.settings
  split_ifs <;> rfl

namespace Procedure.Accepts

lemma withdrawn (h : p.Accepts g c starts) (k : Cancellation) :
    p.Accepts g (c.withdrawn k) starts :=
  ⟨h.minLevel, h.sample, h.starts⟩

lemma check_settings (h : p.Accepts g c starts) : check g starts (p.settings c) = .ok () := by
  refine check_eq_ok ?_ h.starts
  unfold Procedure.settings
  split_ifs <;> exact h.sample

lemma answer_eq_search (h : p.Accepts g c starts) (fuel : ℕ) :
    p.answer fuel g starts c = (Search.run g (p.settings c) fuel (.init (p.settings c) starts)).map
      (·.map fun z => p.shapes g c (z.output g (p.settings c))) := by
  rw [answer_of_le h.minLevel, traverse_eq_search h.check_settings, Option.map_map]
  congr 1
  funext r
  exact Except.map_map_eq _ _ r

lemma exists_cancelled_of_answer {e : WalkError} (h : p.Accepts g c starts)
    (herror : p.answer fuel g starts c = some (.error e)) : ∃ visited, e = .cancelled visited := by
  rw [h.answer_eq_search, Option.map_eq_some_iff] at herror
  obtain ⟨e' | z, hrun, hr⟩ := herror
  · cases hr
    exact Search.exists_cancelled_of_run hrun
  · cases hr

lemma exists_isSome_answer (h : p.Accepts g c starts)
    (hrun : ∃ fuel, (Search.run g (p.settings c) fuel (.init (p.settings c) starts)).isSome) :
    ∃ fuel, (p.answer fuel g starts c).isSome := by
  obtain ⟨fuel, hfuel⟩ := hrun
  refine ⟨fuel, ?_⟩
  rwa [h.answer_eq_search, Option.isSome_map]

lemma exists_isSome_answer_withdrawn (h : p.Accepts g c starts) (hg : g.Reachable)
    {k : Cancellation} (hk : k = .never → (p.settings c).Confines g) :
    ∃ fuel, (p.answer fuel g starts (c.withdrawn k)).isSome := by
  refine (h.withdrawn k).exists_isSome_answer ?_
  rw [settings_withdrawn]
  cases k with
  | never => exact Search.exists_isSome_run_of_confines hg (hk rfl) h.starts
  | after n => exact Search.exists_isSome_run_of_after rfl _

end Procedure.Accepts

/-! ### The checks -/

namespace Command

/-- What becomes of the levels or the options of a command: settings, or the error of the first
check that they do not pass. -/
inductive Asks (g : Graph) : Command → Except CommandError Config → Prop
  | expand {start : Json} {relationshipFilter labelFilter : Option String} {minLevel maxLevel : ℤ}
      {least : ℕ} (hlevel : Options.level minLevel = .ok least) :
      Asks g (.expand start relationshipFilter labelFilter minLevel maxLevel) (.ok
        { relationshipFilter := .parseOption relationshipFilter
          labelFilter := .parseOption labelFilter
          minLevel := least
          maxLevel := Options.bound maxLevel
          uniqueness := .once .relationship .path })
  | level {start : Json} {relationshipFilter labelFilter : Option String} {minLevel maxLevel : ℤ}
      {e : CommandError} (h : Options.level minLevel = .error e) :
      Asks g (.expand start relationshipFilter labelFilter minLevel maxLevel) (.error e)
  | shaped {shape : Shape} {start options : Json} {o : Options} {r : Except CommandError Config}
      (hoptions : Options.ofJson options = .ok o) (hr : o.resolve g (.shaped shape) = r) :
      Asks g (.shaped shape start options) r
  | options {shape : Shape} {start options : Json} {e : CommandError}
      (h : Options.ofJson options = .error e) : Asks g (.shaped shape start options) (.error e)

/-- The command passes every check and asks for these settings and starts. -/
def Passes (g : Graph) (cmd : Command) (c : Config) (starts : List NodeId) : Prop :=
  cmd.Asks g (.ok c) ∧ startNodes g cmd.start = .ok starts

/-- The command does not pass some check, and this is the error of the first such check. -/
def Fails (g : Graph) (cmd : Command) (e : CommandError) : Prop :=
  cmd.Asks g (.error e) ∨ ∃ c, cmd.Asks g (.ok c) ∧ startNodes g cmd.start = .error e

variable {cmd : Command} {e : CommandError} {r : Except CommandError Config}

lemma exists_asks (g : Graph) (cmd : Command) : ∃ r, cmd.Asks g r := by
  cases cmd with
  | expand start relationshipFilter labelFilter minLevel maxLevel =>
    rcases hlevel : Options.level minLevel with e | least
    · exact ⟨_, .level hlevel⟩
    · exact ⟨_, .expand hlevel⟩
  | shaped shape start options =>
    rcases hoptions : Options.ofJson options with e | o
    · exact ⟨_, .options hoptions⟩
    · exact ⟨_, .shaped hoptions rfl⟩

lemma passes_or_fails (g : Graph) (cmd : Command) :
    (∃ c starts, cmd.Passes g c starts) ∨ ∃ e, cmd.Fails g e := by
  obtain ⟨e | c, hasks⟩ := exists_asks g cmd
  · exact .inr ⟨e, .inl hasks⟩
  rcases hstarts : startNodes g cmd.start with e | starts
  · exact .inr ⟨e, .inr ⟨c, hasks, hstarts⟩⟩
  · exact .inl ⟨c, starts, hasks, hstarts⟩

lemma Asks.fits (h : cmd.Asks g (.ok c)) :
    (cmd.procedure.isSubgraph = true → c.minLevel ≤ 1) ∧ c.sample ≠ some 0 := by
  cases h with
  | expand hlevel => exact ⟨fun hp => absurd hp Bool.false_ne_true, nofun⟩
  | shaped hoptions hr => exact Options.fits_of_resolve hr

lemma Asks.isRefusal (h : cmd.Asks g (.error e)) : e.IsRefusal := by
  cases h with
  | level h => exact Options.refuses_level _ e h
  | shaped hoptions hr => exact Options.refuses_resolve _ g _ e hr
  | options h => exact Options.refuses_ofJson _ e h

lemma Passes.accepts (h : cmd.Passes g c starts) (hg : g.Reachable) :
    cmd.procedure.Accepts g c starts where
  minLevel := h.1.fits.1
  sample := h.1.fits.2
  starts := isSome_node?_of_startNodes hg h.2

lemma Fails.isRefusal (h : cmd.Fails g e) : e.IsRefusal := by
  rcases h with hasks | ⟨c, -, hstarts⟩
  · exact hasks.isRefusal
  · exact refuses_startNodes g _ e hstarts

/-! ### The executor -/

lemma Asks.config_eq (h : cmd.Asks g r) (k : Cancellation) :
    (⟨g, k⟩ : Executor).config cmd = r.map (·.withdrawn k) := by
  cases h with
  | expand hlevel => exact Except.bind_eq_ok_iff.mpr ⟨_, hlevel, rfl⟩
  | level h => exact Except.bind_eq_error_iff.mpr (.inl h)
  | shaped hoptions hr =>
    rw [Executor.config, hoptions, ← hr]
    rfl
  | options h => exact Except.bind_eq_error_iff.mpr (.inl h)

lemma Passes.prepare_eq (h : cmd.Passes g c starts) (k : Cancellation) :
    (⟨g, k⟩ : Executor).prepare cmd = .ok (c.withdrawn k, starts) :=
  Except.bind_eq_ok_iff.mpr
    ⟨_, h.1.config_eq k, Except.bind_eq_ok_iff.mpr ⟨starts, h.2, rfl⟩⟩

lemma Fails.prepare_eq (h : cmd.Fails g e) (k : Cancellation) :
    (⟨g, k⟩ : Executor).prepare cmd = .error e := by
  refine Except.bind_eq_error_iff.mpr ?_
  rcases h with hasks | ⟨c, hasks, hstarts⟩
  · exact .inl (hasks.config_eq k)
  · exact .inr ⟨_, hasks.config_eq k, Except.bind_eq_error_iff.mpr (.inl hstarts)⟩

lemma Passes.execute_eq (h : cmd.Passes g c starts) (k : Cancellation) (fuel : ℕ) :
    (⟨g, k⟩ : Executor).execute fuel cmd =
      (cmd.procedure.answer fuel g starts (c.withdrawn k)).map (·.mapError .ofWalk) := by
  rw [Executor.execute, h.prepare_eq k]
  rfl

lemma Fails.execute_eq (h : cmd.Fails g e) (k : Cancellation) (fuel : ℕ) :
    (⟨g, k⟩ : Executor).execute fuel cmd = some (.error e) := by
  rw [Executor.execute, h.prepare_eq k]

/-- How the checks of a command stand to the traversal that it asks for. -/
structure ChecksFirst (g : Graph) (cmd : Command) : Prop where
  passes_or_fails : (∃ c starts, cmd.Passes g c starts) ∨ ∃ e, cmd.Fails g e
  cancelled : ∀ c starts, cmd.Passes g c starts → ∀ k fuel e,
    cmd.procedure.answer fuel g starts (c.withdrawn k) = some (.error e) →
      ∃ visited, e = .cancelled visited
  /-- The command is answered if it is withdrawn some time or the paths cannot go on for ever. -/
  answered : ∀ c starts, cmd.Passes g c starts →
    ∀ k, (k = .never → (cmd.procedure.settings c).Confines g) →
      ∃ fuel, (cmd.procedure.answer fuel g starts (c.withdrawn k)).isSome
  relayed : ∀ c starts, cmd.Passes g c starts → ∀ k fuel, (⟨g, k⟩ : Executor).execute fuel cmd =
    (cmd.procedure.answer fuel g starts (c.withdrawn k)).map (·.mapError .ofWalk)
  /-- All errors but that of a withdrawal come from the checks, whenever the call is withdrawn. -/
  error_iff : ∀ e, (∀ visited, e ≠ .aborted visited) → ∀ k fuel,
    (⟨g, k⟩ : Executor).execute fuel cmd = some (.error e) ↔ cmd.Fails g e
  refusal : ∀ e, cmd.Fails g e → e.IsRefusal

lemma error_iff (hg : g.Reachable) (he : ∀ visited, e ≠ .aborted visited) (k : Cancellation)
    (fuel : ℕ) : (⟨g, k⟩ : Executor).execute fuel cmd = some (.error e) ↔ cmd.Fails g e := by
  refine ⟨fun h => ?_, fun h => h.execute_eq k fuel⟩
  obtain ⟨c, starts, hpasses⟩ | ⟨e', hfails⟩ := cmd.passes_or_fails g
  · rw [hpasses.execute_eq k, Option.map_eq_some_iff] at h
    obtain ⟨e' | a, hanswer, hr⟩ := h
    · obtain ⟨visited, rfl⟩ := ((hpasses.accepts hg).withdrawn k).exists_cancelled_of_answer hanswer
      cases hr
      exact absurd rfl (he visited)
    · cases hr
  · rw [hfails.execute_eq k, Option.some.injEq, Except.error.injEq] at h
    exact h ▸ hfails

lemma checksFirst (hg : g.Reachable) (cmd : Command) : cmd.ChecksFirst g where
  passes_or_fails := cmd.passes_or_fails g
  cancelled := fun _ _ h k _ _ => ((h.accepts hg).withdrawn k).exists_cancelled_of_answer
  answered := fun _ _ h _ hk => (h.accepts hg).exists_isSome_answer_withdrawn hg hk
  relayed := fun _ _ h k fuel => h.execute_eq k fuel
  error_iff := fun _ he k fuel => error_iff hg he k fuel
  refusal := fun _ h => h.isRefusal

end Command

/-! ### The expander -/

namespace Expander

/-- The call comes back with the rows of the answer to the command or with its error, and never with
an error of its own. -/
def Relays {α : Type} (e : Expander) (fuel : ℕ) (cmd : Command) (wrap : List (Option α) → Answer)
    (r : Option (Except CommandError (List (Option α)))) : Prop :=
  e.executor.execute fuel cmd = r.map (·.map wrap) ∧
    ∀ name, r ≠ some (.error (.unexpectedAnswer name))

/-- Every call of an expander relays what its command is answered. -/
structure Faithful (e : Expander) : Prop where
  expand : ∀ fuel start relationshipFilter labelFilter minLevel maxLevel,
    e.Relays fuel (.expand start relationshipFilter labelFilter minLevel maxLevel) .paths
      (e.expand fuel start relationshipFilter labelFilter minLevel maxLevel)
  expandConfig : ∀ fuel start options,
    e.Relays fuel (.shaped .paths start options) .paths (e.expandConfig fuel start options)
  subgraphNodes : ∀ fuel start options,
    e.Relays fuel (.shaped .nodes start options) .nodes (e.subgraphNodes fuel start options)
  subgraphAll : ∀ fuel start options,
    e.Relays fuel (.shaped .subgraph start options) .subgraphs (e.subgraphAll fuel start options)
  spanningTree : ∀ fuel start options,
    e.Relays fuel (.shaped .tree start options) .paths (e.spanningTree fuel start options)

variable {α : Type} {wrap : List (Option α) → Answer} {select : Answer → Option (List (Option α))}
  {k : Cancellation} {cmd : Command}

lemma exists_rows_of_execute {x : Executor}
    (hwrap : ∀ c starts, ∃ rows : Option (Except WalkError (List (Option α))),
      x.answer fuel cmd.procedure c starts = rows.map (·.map wrap))
    {a : Answer} (h : x.execute fuel cmd = some (.ok a)) : ∃ rows, a = wrap rows := by
  unfold Executor.execute at h
  split at h
  · cases h
  · next c starts _ =>
    obtain ⟨_ | e | rows, hrows⟩ := hwrap c starts <;> rw [hrows] at h
    · cases h
    · cases h
    · cases h
      exact ⟨rows, rfl⟩

lemma call_of_none {e : Expander} (h : e.executor.execute fuel cmd = none) :
    e.call fuel cmd select = none := by
  rw [call, h]
  rfl

lemma call_of_error {e : Expander} {err : CommandError}
    (h : e.executor.execute fuel cmd = some (.error err)) :
    e.call fuel cmd select = some (.error err) := by
  rw [call, h]
  rfl

lemma call_of_ok {e : Expander} {a : Answer} {rows : List (Option α)}
    (h : e.executor.execute fuel cmd = some (.ok a)) (hselect : select a = some rows) :
    e.call fuel cmd select = some (.ok rows) := by
  rw [call, h, Option.map_some, Except.bind, hselect]

lemma relays (hg : g.Reachable) (hselect : ∀ rows, select (wrap rows) = some rows)
    (hwrap : ∀ c starts, ∃ rows : Option (Except WalkError (List (Option α))),
      (⟨g, k⟩ : Executor).answer fuel cmd.procedure c starts = rows.map (·.map wrap)) :
    (new g k).Relays fuel cmd wrap ((new g k).call fuel cmd select) := by
  unfold Relays
  rcases h : (new g k).executor.execute fuel cmd with _ | err | a
  · rw [call_of_none h]
    exact ⟨rfl, fun name hname => by cases hname⟩
  · rw [call_of_error h]
    refine ⟨rfl, fun name hname => ?_⟩
    cases hname
    exact ((Command.error_iff hg (fun _ => CommandError.noConfusion) k fuel).mp h).isRefusal
  · obtain ⟨rows, rfl⟩ := exists_rows_of_execute hwrap h
    rw [call_of_ok h (hselect rows)]
    exact ⟨rfl, fun name hname => by cases hname⟩

lemma faithful (hg : g.Reachable) (k : Cancellation) : (new g k).Faithful where
  expand _ _ _ _ _ _ := relays hg (fun _ => rfl) fun _ _ => ⟨_, rfl⟩
  expandConfig _ _ _ := relays hg (fun _ => rfl) fun _ _ => ⟨_, rfl⟩
  subgraphNodes _ _ _ := relays hg (fun _ => rfl) fun _ _ => ⟨_, rfl⟩
  subgraphAll _ _ _ := relays hg (fun _ => rfl) fun _ _ => ⟨_, rfl⟩
  spanningTree _ _ _ := relays hg (fun _ => rfl) fun _ _ => ⟨_, rfl⟩

end Expander

/-- **Checks**: a command that passes its checks is answered or withdrawn. All other errors are
those of the checks, whether it is withdrawn or not, and an expander hands on what the command is
answered. -/
theorem Command.checks_come_first (hg : g.Reachable) :
    (∀ cmd : Command, cmd.ChecksFirst g) ∧ ∀ k, (Expander.new g k).Faithful :=
  ⟨Command.checksFirst hg, Expander.faithful hg⟩

/-- A tree from one of two nodes joined both ways: the command passes, so it is answered, or it is
withdrawn at once. From a node that is not there it fails, and no sooner for being withdrawn. -/
theorem Command.checks_come_first_twoWay :
    let options : Json := .obj [("minLevel", .num (.int 1))]
    let tree (node : ℤ) : Command := .shaped .tree (.num (.int node)) options
    let withdrawn : Executor := ⟨.twoWay, .after 0⟩
    (∃ c, (tree 0).Passes .twoWay c [⟨0⟩] ∧
      (∃ fuel, ((tree 0).procedure.answer fuel .twoWay [⟨0⟩] (c.withdrawn .never)).isSome) ∧
      withdrawn.execute 5 (tree 0) = some (.error (.aborted 0))) ∧
      (tree 7).Fails .twoWay (.nodeNotFound "7") ∧
      withdrawn.execute 5 (tree 7) = some (.error (.nodeNotFound "7")) := by
  intro options tree withdrawn
  obtain ⟨hchecks, hfaithful⟩ := checks_come_first (g := .twoWay) (Graph.reachable_after_empty _)
  have hstarts : startNodes .twoWay (tree 0).start = .ok [⟨0⟩] := by decide +kernel
  have hpasses : (tree 0).Passes .twoWay _ [⟨0⟩] := ⟨.shaped rfl rfl, hstarts⟩
  have haborted : withdrawn.execute 5 (tree 0) = some (.error (.aborted 0)) := by decide +kernel
  have hcall : (Expander.new .twoWay (.after 0)).spanningTree 5 (.num (.int 7)) options =
      some (.error (.nodeNotFound "7")) := by decide +kernel
  have hexecute := ((hfaithful (.after 0)).spanningTree 5 (.num (.int 7)) options).1
  rw [hcall] at hexecute
  have hfails :=
    ((hchecks (tree 7)).error_iff _ (fun _ => CommandError.noConfusion) _ _).mp hexecute
  have hanswered := (hchecks (tree 0)).answered _ _ hpasses .never fun _ => .inr trivial
  exact ⟨⟨_, hpasses, hanswered, haborted⟩, hfails, hexecute⟩

end GraphWalk
