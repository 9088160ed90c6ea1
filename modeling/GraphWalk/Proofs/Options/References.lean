import GraphWalk.Proofs.Options.Resolution

/-!
References lead to the nodes they are written for.

A node has a number and an element id, and a reference gives one of them, alone or in a member of an
object. The number is read with a sign. A node whose number is not below the limit for numbers with
a sign is found by its element id only.
-/

namespace GraphWalk

lemma Json.signed?_ofNat (k : ℕ) :
    (ofNat k).signed? = if k < Word.signedLimit then some (k : ℤ) else none := by
  have hrange : -(Word.signedLimit : ℤ) ≤ k ∧ (k : ℤ) < Word.signedLimit ↔
      k < Word.signedLimit := by omega
  rw [signed?, show (ofNat k).int? = some (k : ℤ) from rfl, Option.bind_eq_bind,
    Option.bind_some]
  simp only [hrange]

namespace NodeRef

/-- The ways to write a reference to a node. Where an object gives a number that can be read, its
element id is not looked at. -/
inductive Addresses (n : Node) : Json → Prop
  | number (h : n.id.val < Word.signedLimit) : Addresses n (.ofNat n.id.val)
  | numberMember (h : n.id.val < Word.signedLimit) {fields : Json.Fields}
    (hid : fields.lookup "id" = some (.ofNat n.id.val)) : Addresses n (.obj fields)
  | elementId : Addresses n (.str n.elementId)
  | elementIdMember {fields : Json.Fields} (hid : fields.lookup "id" >>= Json.signed? = none)
    (helementId : fields.lookup "elementId" = some (.str n.elementId)) : Addresses n (.obj fields)

/-- The ways to write a number as a reference and nothing else, with the reason that is given where
the number is too large to be read. -/
inductive GivesNumber (k : ℕ) : Json → (String → InvalidInput) → Prop
  | number : GivesNumber k (.ofNat k) (.idNotInteger · (.int k))
  | numberMember {fields : Json.Fields} (hid : fields.lookup "id" = some (.ofNat k))
    (helementId : fields.lookup "elementId" = none) : GivesNumber k (.obj fields) .mapWithoutId

/-- What can be written as a reference is neither `null` nor a list. -/
def IsSingle (j : Json) : Prop := j ≠ .null ∧ ∀ js, j ≠ .arr js

/-- A value is read as a reference to the node, whatever it is given for. -/
def ReadsTo (g : Graph) (j : Json) (node : NodeId) : Prop :=
  ∃ r : NodeRef, (∀ key, ofJson key j = .ok r) ∧ r.resolve? g = some node

variable {g : Graph} {n : Node} {j : Json} {key : String}

/-! ### One reference -/

lemma resolve?_of_target? {r : NodeRef} (hn : g.node? n.id = some n)
    (h : r.target? g = some n.id) : r.resolve? g = some n.id := by
  unfold resolve?
  rw [h, Option.bind_eq_bind, Option.bind_some, hn]
  rfl

lemma target?_number (id : NodeId) : (number id.val).target? g = some id := by
  have hsign : (0 : ℤ) ≤ id.val := Int.natCast_nonneg _
  unfold target?
  dsimp only
  rw [if_pos hsign]
  rfl

lemma target?_elementId (hg : g.Reachable) (hn : g.node? n.id = some n) :
    (elementId n.elementId).target? g = some n.id := by
  obtain ⟨p, hp⟩ := hg.exists_tracks
  obtain ⟨hmem, -⟩ := hp.node?_eq_some_iff.mp hn
  exact hp.elementIds.getElem?_key hmem

lemma ofJson_num {number : Json.Number} {id : ℤ} (h : (Json.num number).signed? = some id) :
    ofJson key (.num number) = .ok (.number id) := by
  unfold ofJson
  dsimp only
  rw [h]

lemma ofJson_num_eq_error {number : Json.Number} (h : (Json.num number).signed? = none) :
    ofJson key (.num number) = .error (.idNotInteger key number) := by
  unfold ofJson
  dsimp only
  rw [h]

lemma readsTo_of_addresses (h : Addresses n j) (hg : g.Reachable) (hn : g.node? n.id = some n) :
    ReadsTo g j n.id := by
  have hnumber : (number n.id.val).resolve? g = some n.id :=
    resolve?_of_target? hn (target?_number n.id)
  have helement : (elementId n.elementId).resolve? g = some n.id :=
    resolve?_of_target? hn (target?_elementId hg hn)
  cases h with
  | number h =>
    have hsigned := Json.signed?_ofNat n.id.val
    rw [if_pos h] at hsigned
    exact ⟨_, fun key => ofJson_num hsigned, hnumber⟩
  | numberMember h hid =>
    refine ⟨_, fun key => ?_, hnumber⟩
    unfold ofJson
    dsimp only
    rw [hid, Option.bind_eq_bind, Option.bind_some, Json.signed?_ofNat, if_pos h]
  | elementId => exact ⟨_, fun key => rfl, helement⟩
  | elementIdMember hid helementId =>
    refine ⟨_, fun key => ?_, helement⟩
    unfold ofJson
    dsimp only
    rw [hid, helementId]
    rfl

lemma ofJson_of_givesNumber {k : ℕ} {why : String → InvalidInput} (hk : Word.signedLimit ≤ k)
    (h : GivesNumber k j why) : ofJson key j = .error (why key) := by
  have hsigned := Json.signed?_ofNat k
  rw [if_neg (Nat.not_lt.mpr hk)] at hsigned
  cases h with
  | number => exact ofJson_num_eq_error hsigned
  | numberMember hid helementId =>
    unfold ofJson
    dsimp only
    rw [hid, helementId, Option.bind_eq_bind, Option.bind_some, hsigned]
    rfl

/-! ### Lists -/

lemma isSingle_of_addresses (h : Addresses n j) : IsSingle j := by
  cases h <;> exact ⟨Json.noConfusion, fun _ => Json.noConfusion⟩

lemma isSingle_of_givesNumber {k : ℕ} {why : String → InvalidInput} (h : GivesNumber k j why) :
    IsSingle j := by
  cases h <;> exact ⟨Json.noConfusion, fun _ => Json.noConfusion⟩

lemma listOfJson_eq (h : IsSingle j) : listOfJson key j = (ofJson key j).map fun r => [r] := by
  cases j with
  | null => exact absurd rfl h.1
  | arr js => exact absurd rfl (h.2 js)
  | _ => rfl

lemma exists_listOfJson_arr {js : List Json} {nodes : List NodeId}
    (h : List.Forall₂ (ReadsTo g) js nodes) :
    ∃ refs, (∀ key, listOfJson key (.arr js) = .ok refs) ∧
      List.Forall₂ (fun r node => r.resolve? g = some node) refs nodes := by
  induction h with
  | nil => exact ⟨[], fun _ => rfl, .nil⟩
  | cons hj _ ih =>
    obtain ⟨r, hread, hr⟩ := hj
    obtain ⟨refs, hrefs, hresolve⟩ := ih
    refine ⟨r :: refs, fun key => ?_, .cons hr hresolve⟩
    exact mapM_eq_ok_iff.mpr (.cons (hread key) (mapM_eq_ok_iff.mp (hrefs key)))

/-- A value given for a start names the nodes, in this order, and given as a list of a filter it
names these nodes and no others. -/
structure Finds (g : Graph) (j : Json) (nodes : List NodeId) : Prop where
  starts : startNodes g j = .ok nodes
  filter : ∀ key, ∃ refs set, optionalListOfJson key (some j) = .ok (some refs) ∧
    NodeFilter.resolveList g (some refs) = some set ∧ ∀ node, node ∈ set ↔ node ∈ nodes

/-- A value is not read as references, neither for a start nor as a list of a filter. -/
structure IsRefused (g : Graph) (j : Json) (why : String → InvalidInput) : Prop where
  starts : startNodes g j = .error (.invalidInput (why "start"))
  filter : ∀ key, optionalListOfJson key (some j) = .error (why key)

lemma startNodes_eq_ok {refs : List NodeRef} {nodes : List NodeId}
    (hread : listOfJson "start" j = .ok refs)
    (hresolve : List.Forall₂ (fun r node => r.resolve? g = some node) refs nodes) :
    startNodes g j = .ok nodes := by
  refine Except.bind_eq_ok_iff.mpr ⟨refs, Except.mapError_eq_ok_iff.mpr hread, ?_⟩
  refine mapM_eq_ok_iff.mpr (hresolve.imp fun r node hr => ?_)
  rw [hr]

lemma filterMap_resolve? {refs : List NodeRef} {nodes : List NodeId}
    (hresolve : List.Forall₂ (fun r node => r.resolve? g = some node) refs nodes) :
    refs.filterMap (·.resolve? g) = nodes := by
  induction hresolve with
  | nil => rfl
  | cons hr _ ih => rw [List.filterMap_cons_some (f := fun r : NodeRef => r.resolve? g) hr, ih]

lemma exists_resolveList {refs : List NodeRef} {nodes : List NodeId} (hne : nodes ≠ [])
    (hresolve : List.Forall₂ (fun r node => r.resolve? g = some node) refs nodes) :
    ∃ set, NodeFilter.resolveList g (some refs) = some set ∧ ∀ node, node ∈ set ↔ node ∈ nodes := by
  have hrefs : refs.isEmpty = false := by
    cases hresolve with
    | nil => exact absurd rfl hne
    | cons => rfl
  refine ⟨.ofList nodes, ?_, fun node => ?_⟩
  · unfold NodeFilter.resolveList
    rw [Option.bind_eq_bind, Option.bind_some, hrefs, filterMap_resolve? hresolve]
    rfl
  · rw [Std.TreeSet.mem_ofList, List.contains_eq_mem, decide_eq_true_eq]

lemma finds_of_listOfJson {refs : List NodeRef} {nodes : List NodeId} (hnull : j ≠ .null)
    (hne : nodes ≠ []) (hread : ∀ key, listOfJson key j = .ok refs)
    (hresolve : List.Forall₂ (fun r node => r.resolve? g = some node) refs nodes) :
    Finds g j nodes where
  starts := startNodes_eq_ok (hread "start") hresolve
  filter := fun key => by
    obtain ⟨set, hset, hmem⟩ := exists_resolveList hne hresolve
    refine ⟨refs, set, ?_, hset, hmem⟩
    rw [optionalListOfJson_some hnull, hread]
    rfl

lemma isRefused_of_listOfJson {why : String → InvalidInput} (hnull : j ≠ .null)
    (hread : ∀ key, listOfJson key j = .error (why key)) : IsRefused g j why where
  starts := by
    unfold startNodes
    rw [hread]
    rfl
  filter := fun key => by
    rw [optionalListOfJson_some hnull, hread]
    rfl

/-! ### What is found and what is refused -/

lemma finds_of_addresses (hg : g.Reachable) (hn : g.node? n.id = some n) (h : Addresses n j) :
    Finds g j [n.id] := by
  obtain ⟨r, hread, hr⟩ := readsTo_of_addresses h hg hn
  have hsingle := isSingle_of_addresses h
  have hlist : ∀ key, listOfJson key j = .ok [r] := fun key => by
    rw [listOfJson_eq hsingle, hread]
    rfl
  exact finds_of_listOfJson hsingle.1 (List.cons_ne_nil _ _) hlist (.cons hr .nil)

lemma finds_arr (hg : g.Reachable) {ns : List Node} {js : List Json} (hne : ns ≠ [])
    (hns : ∀ n ∈ ns, g.node? n.id = some n) (h : List.Forall₂ Addresses ns js) :
    Finds g (.arr js) (ns.map Node.id) := by
  have hboth := (List.forall₂_and_left ns js).mpr ⟨hns, h⟩
  have hreads : List.Forall₂ (ReadsTo g) js (ns.map Node.id) := by
    rw [List.forall₂_map_right_iff]
    exact (hboth.imp fun n j hnj => readsTo_of_addresses hnj.2 hg hnj.1).flip
  obtain ⟨refs, hread, hresolve⟩ := exists_listOfJson_arr hreads
  exact finds_of_listOfJson Json.noConfusion (by simpa using hne) hread hresolve

lemma isRefused_of_givesNumber {k : ℕ} {why : String → InvalidInput} (hk : Word.signedLimit ≤ k)
    (h : GivesNumber k j why) : IsRefused g j why := by
  have hsingle := isSingle_of_givesNumber h
  refine isRefused_of_listOfJson hsingle.1 fun key => ?_
  rw [listOfJson_eq hsingle, ofJson_of_givesNumber hk h]
  rfl

lemma isRefused_arr {k : ℕ} {why : String → InvalidInput} (hk : Word.signedLimit ≤ k)
    (h : GivesNumber k j why) (js : List Json) : IsRefused g (.arr (j :: js)) why := by
  refine isRefused_of_listOfJson Json.noConfusion fun key => ?_
  unfold listOfJson
  dsimp only
  rw [List.mapM_cons, ofJson_of_givesNumber hk h]
  rfl

end NodeRef

open NodeRef

/-- **Addresses**: in a graph with any history, a node is found by every reference that is written
for it, given alone or among others, for a start and in a filter. That leaves out one way to write a
reference: a number that is not below the limit for numbers with a sign is refused, though a node
can have it. -/
theorem addresses_find_nodes {g : Graph} (hg : g.Reachable) :
    (∀ n j, g.node? n.id = some n → Addresses n j → Finds g j [n.id]) ∧
      (∀ ns js, ns ≠ [] → (∀ n ∈ ns, g.node? n.id = some n) → List.Forall₂ Addresses ns js →
        Finds g (.arr js) (ns.map Node.id)) ∧
      ∀ k j why, Word.signedLimit ≤ k → GivesNumber k j why →
        IsRefused g j why ∧ ∀ js, IsRefused g (.arr (j :: js)) why :=
  ⟨fun _ _ hn h => finds_of_addresses hg hn h, fun _ _ hne hns h => finds_arr hg hne hns h,
    fun _ _ _ hk h => ⟨isRefused_of_givesNumber hk h, isRefused_arr hk h⟩⟩

/-- Two nodes, one of which has a number too large for the numbers with a sign. -/
def Graph.faraway : Graph := empty.after
  [.addNode [] [], .insertNode ⟨⟨9223372036854775808⟩, "far", [], []⟩]

/-- Either node is found by its element id, and one of them by its number. -/
theorem addresses_find_nodes_faraway :
    let far : ℕ := 9223372036854775808
    Finds .faraway (.ofNat 0) [⟨0⟩] ∧
      Finds .faraway (.arr [.obj [("elementId", .str "far")], .str "n:0"]) [⟨far⟩, ⟨0⟩] ∧
      IsRefused .faraway (.obj [("id", .ofNat far)]) .mapWithoutId := by
  intro far
  have hstored : ∀ n : Node, n ∈ [⟨⟨far⟩, "far", [], []⟩, ⟨⟨0⟩, "n:0", [], []⟩] →
      Graph.faraway.node? n.id = some n := by decide +kernel
  obtain ⟨hone, hmany, hlarge⟩ := addresses_find_nodes (g := .faraway) ⟨_, rfl⟩
  refine ⟨?_, ?_, ?_⟩
  · exact hone ⟨⟨0⟩, "n:0", [], []⟩ _ (hstored _ (by simp)) (.number (by decide))
  · exact hmany _ _ (List.cons_ne_nil _ _) hstored
      (.cons (.elementIdMember rfl rfl) (.cons .elementId .nil))
  · exact (hlarge far _ _ (by decide) (.numberMember rfl rfl)).1

/-- A node is not found by its number. -/
theorem large_numbers_find_no_node :
    ∃ (g : Graph) (n : Node), g.Reachable ∧ g.node? n.id = some n ∧
      n.id.val + 1 < Word.unsignedLimit ∧
      startNodes g (.ofNat n.id.val) ≠ .ok [n.id] ∧
      startNodes g (.obj [("id", .ofNat n.id.val)]) ≠ .ok [n.id] := by
  refine ⟨.faraway, ⟨⟨9223372036854775808⟩, "far", [], []⟩, Graph.reachable_after_empty _, ?_, ?_,
    ?_, ?_⟩ <;> decide +kernel

end GraphWalk
