import GraphWalk.Options.Record
import GraphWalk.Proofs.Graph.Refinement

/-!
What is checked when options and references to nodes are resolved.

A resolution is a chain of checks, and each check passes something on or refuses the request. So
what comes out at the end has passed all of them, and an error is always a refusal.
-/

namespace GraphWalk

/-! ### Chains of checks -/

section Chain

variable {ε ε' α β : Type} {x : Except ε α} {f : α → Except ε β} {b : β}

lemma Except.ok_bind (a : α) : Except.ok a >>= f = f a := rfl

lemma Except.bind_eq_ok_iff : x >>= f = .ok b ↔ ∃ a, x = .ok a ∧ f a = .ok b := by
  cases x with
  | error e => exact iff_of_false (fun h => by cases h) fun ⟨a, h, _⟩ => by cases h
  | ok a =>
    constructor
    · exact fun h => ⟨a, rfl, h⟩
    · rintro ⟨a', h, hb⟩
      cases h
      exact hb

lemma Except.bind_eq_error_iff {e : ε} :
    x >>= f = .error e ↔ x = .error e ∨ ∃ a, x = .ok a ∧ f a = .error e := by
  cases x with
  | error e' =>
    constructor
    · intro h
      cases h
      exact .inl rfl
    · rintro (h | ⟨a, h, -⟩) <;> cases h
      rfl
  | ok a =>
    constructor
    · exact fun h => .inr ⟨a, rfl, h⟩
    · rintro (h | ⟨a', h, he⟩)
      · cases h
      · cases h
        exact he

lemma Except.bind_congr {f' : α → Except ε β} (h : ∀ a, x = .ok a → f a = f' a) :
    x >>= f = x >>= f' := by
  cases x with
  | error e => rfl
  | ok a => exact h a rfl

lemma Except.mapError_eq_ok_iff {g : ε → ε'} {a : α} : x.mapError g = .ok a ↔ x = .ok a := by
  cases x with
  | error e => exact iff_of_false (fun h => by cases h) fun h => by cases h
  | ok a' => exact ⟨fun h => by cases h; rfl, fun h => by cases h; rfl⟩

/-- A list is checked member by member. -/
lemma mapM_eq_ok_iff {as : List α} {bs : List β} {f : α → Except ε β} :
    as.mapM f = .ok bs ↔ List.Forall₂ (fun a b => f a = .ok b) as bs := by
  induction as generalizing bs with
  | nil =>
    rw [List.forall₂_nil_left_iff]
    exact ⟨fun h => by cases h; rfl, fun h => h ▸ rfl⟩
  | cons a as ih =>
    rw [List.mapM_cons, List.forall₂_cons_left_iff, Except.bind_eq_ok_iff]
    refine exists_congr fun b => ?_
    rw [Except.bind_eq_ok_iff]
    constructor
    · rintro ⟨hb, bs', hbs, h⟩
      cases h
      exact ⟨bs', hb, ih.mp hbs, rfl⟩
    · rintro ⟨bs', hb, hbs, rfl⟩
      exact ⟨hb, bs', ih.mpr hbs, rfl⟩

lemma exists_of_mapM_eq_ok {as : List α} {bs : List β} {f : α → Except ε β}
    (h : as.mapM f = .ok bs) : ∀ b ∈ bs, ∃ a ∈ as, f a = .ok b := by
  have hall := mapM_eq_ok_iff.mp h
  clear h
  induction hall with
  | nil => exact fun b hb => absurd hb List.not_mem_nil
  | cons hb _ ih =>
    intro b' hb'
    rcases List.mem_cons.mp hb' with rfl | hb'
    · exact ⟨_, List.mem_cons_self, hb⟩
    · obtain ⟨a', ha', hfa⟩ := ih b' hb'
      exact ⟨a', List.mem_cons_of_mem _ ha', hfa⟩

end Chain

/-! ### Lists of references -/

lemma NodeRef.optionalListOfJson_some {key : String} {j : Json} (h : j ≠ .null) :
    optionalListOfJson key (some j) = (listOfJson key j).map some := by
  cases j with
  | null => exact absurd rfl h
  | _ => rfl

/-! ### Refusals -/

/-- The request itself is objected to: nothing was visited, and nothing went wrong inside. -/
def CommandError.IsRefusal : CommandError → Prop
  | .invalidInput _ | .invalidConfig _ | .nodeNotFound _ => True
  | .aborted _ | .undecodable | .unexpectedAnswer _ => False

/-- The only errors of a computation are refusals. -/
def Refuses {α : Type} (x : Except CommandError α) : Prop := ∀ e, x = .error e → e.IsRefusal

namespace Refuses

variable {α β ε : Type}

lemma ok (a : α) : Refuses (.ok a) := fun _ h => by cases h

lemma error {e : CommandError} (h : e.IsRefusal) : Refuses (.error e : Except CommandError α) :=
  fun _ he => by
    cases he
    exact h

lemma bind {x : Except CommandError α} {f : α → Except CommandError β} (hx : Refuses x)
    (hf : ∀ a, Refuses (f a)) : Refuses (x >>= f) := by
  cases x with
  | error e => exact error (hx e rfl)
  | ok a => exact hf a

lemma mapError {x : Except ε α} {g : ε → CommandError} (h : ∀ e, x = .error e → (g e).IsRefusal) :
    Refuses (x.mapError g) := by
  cases x with
  | error e => exact error (h e rfl)
  | ok a => exact ok a

lemma mapM {as : List α} {f : α → Except CommandError β} (h : ∀ a, Refuses (f a)) :
    Refuses (as.mapM f) := by
  induction as with
  | nil => exact ok []
  | cons a as ih =>
    rw [List.mapM_cons]
    exact bind (h a) fun b => bind ih fun bs => ok (b :: bs)

end Refuses

/-! ### Starts -/

variable {g : Graph}

lemma isSome_node?_of_resolve? (hg : g.Reachable) {r : NodeRef} {id : NodeId}
    (h : r.resolve? g = some id) : (g.node? id).isSome := by
  obtain ⟨p, hp⟩ := hg.exists_tracks
  unfold NodeRef.resolve? at h
  simp only [Option.bind_eq_bind, Option.bind_eq_some_iff] at h
  obtain ⟨target, -, n, hn, h⟩ := h
  obtain rfl : n.id = id := Option.some.inj h
  obtain ⟨hmem, -⟩ := hp.node?_eq_some_iff.mp hn
  rw [hp.node?_eq_some_iff.mpr ⟨hmem, rfl⟩]
  rfl

lemma isSome_node?_of_startNodes (hg : g.Reachable) {start : Json} {starts : List NodeId}
    (h : startNodes g start = .ok starts) : ∀ node ∈ starts, (g.node? node).isSome := by
  obtain ⟨refs, -, hrefs⟩ := Except.bind_eq_ok_iff.mp h
  intro node hnode
  obtain ⟨r, -, hr⟩ := exists_of_mapM_eq_ok hrefs node hnode
  split at hr
  · next id hid =>
    cases hr
    exact isSome_node?_of_resolve? hg hid
  · cases hr

lemma refuses_startNodes (g : Graph) (start : Json) : Refuses (startNodes g start) := by
  refine Refuses.bind (Refuses.mapError fun _ _ => trivial) fun refs => Refuses.mapM fun r => ?_
  split
  · exact Refuses.ok _
  · exact Refuses.error trivial

/-! ### Options -/

namespace Options

variable {o : Options} {p : Procedure} {c : Config}

lemma level_eq_ok_iff {n : ℤ} {least : ℕ} : level n = .ok least ↔ (least : ℤ) = n := by
  unfold level
  split_ifs with h
  · rw [Except.ok.injEq]
    omega
  · refine iff_of_false (fun h => by cases h) ?_
    omega

lemma refuses_level (n : ℤ) : Refuses (level n) := by
  unfold level
  split_ifs
  · exact Refuses.ok _
  · exact Refuses.error trivial

lemma ne_zero_of_positive {refuse : ℤ → InvalidInput} {n : Option ℤ}
    (h : positive refuse n = .ok (some 0)) : False := by
  cases n with
  | none => cases h
  | some n =>
    unfold positive at h
    dsimp only at h
    split_ifs at h with hpos
    have hzero : n.toNat = 0 := by simpa using h
    omega

lemma refuses_positive (refuse : ℤ → InvalidInput) (n : Option ℤ) :
    Refuses (positive refuse n) := by
  unfold positive
  split
  · exact Refuses.ok _
  · split_ifs
    · exact Refuses.ok _
    · exact Refuses.error trivial

lemma refuses_ofJson (j : Json) : Refuses (ofJson j) := by
  unfold ofJson
  split
  · exact Refuses.ok _
  · exact Refuses.mapError fun _ _ => trivial
  · exact Refuses.error trivial

lemma refuses_checkMinLevel (p : Procedure) (n : ℤ) :
    Refuses ((p.checkMinLevel n).mapError .ofWalk) := by
  refine Refuses.mapError fun e he => ?_
  unfold Procedure.checkMinLevel at he
  split_ifs at he
  cases he
  trivial

lemma refuses_parseOption (name : Option String) (absent : Uniqueness) :
    Refuses (Uniqueness.parseOption name absent) := by
  unfold Uniqueness.parseOption
  split
  · exact Refuses.ok _
  · refine Refuses.mapError fun e he => ?_
    unfold Uniqueness.parse at he
    split at he <;> cases he
    trivial

lemma refuses_nodeLists (o : Options) : Refuses (o.nodeLists.mapError .invalidInput) :=
  Refuses.mapError fun _ _ => trivial

lemma refuses_resolve (o : Options) (g : Graph) (p : Procedure) : Refuses (o.resolve g p) :=
  (refuses_checkMinLevel p _).bind fun _ =>
    (refuses_level _).bind fun _ =>
    (refuses_parseOption _ _).bind fun _ =>
    (refuses_positive _ _).bind fun _ =>
    (refuses_positive _ _).bind fun _ =>
    o.refuses_nodeLists.bind fun _ =>
    Refuses.ok _

/-- Settings that options are resolved to are fit for the procedure. -/
lemma fits_of_resolve (h : o.resolve g p = .ok c) :
    (p.isSubgraph = true → c.minLevel ≤ 1) ∧ c.sample ≠ some 0 := by
  obtain ⟨_, hcheck, h⟩ := Except.bind_eq_ok_iff.mp h
  obtain ⟨least, hlevel, h⟩ := Except.bind_eq_ok_iff.mp h
  obtain ⟨_, -, h⟩ := Except.bind_eq_ok_iff.mp h
  obtain ⟨sample, hsample, h⟩ := Except.bind_eq_ok_iff.mp h
  obtain ⟨_, -, h⟩ := Except.bind_eq_ok_iff.mp h
  obtain ⟨_, -, h⟩ := Except.bind_eq_ok_iff.mp h
  cases h
  refine ⟨fun hp => ?_, ?_⟩
  · have hrange := (p.checkMinLevel_eq_ok_iff _).mp (Except.mapError_eq_ok_iff.mp hcheck) hp
    have hleast := level_eq_ok_iff.mp hlevel
    change least ≤ 1
    omega
  · rintro (rfl : sample = some 0)
    exact ne_zero_of_positive hsample

end Options

end GraphWalk
