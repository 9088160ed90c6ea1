import GraphWalk.Proofs.Options.Resolution

/-!
A list of nodes that is superseded is read and then left aside.

Two of the lists of a filter can be given under an older name as well. Where both names are used the
older list decides nothing, but it is checked like all others, so a value that cannot be read as
references is refused even there.
-/

namespace GraphWalk

/-! ### Failing alike -/

/-- The first computation fails with an error of its own, unless both fail alike before that. -/
def FailsBy {ε α : Type} (e : ε) (x x' : Except ε α) : Prop :=
  x = .error e ∨ ∃ e', x = .error e' ∧ x' = .error e'

namespace FailsBy

variable {ε ε' α β : Type} {e : ε} {x x' : Except ε α}

lemma bind {f f' : α → Except ε β} (h : ∀ a, FailsBy e (f a) (f' a)) :
    FailsBy e (x >>= f) (x >>= f') := by
  cases x with
  | error e' => exact .inr ⟨e', rfl, rfl⟩
  | ok a => exact h a

lemma bind_left (h : FailsBy e x x') (f f' : α → Except ε β) :
    FailsBy e (x >>= f) (x' >>= f') := by
  rcases h with rfl | ⟨e', rfl, rfl⟩
  · exact .inl rfl
  · exact .inr ⟨e', rfl, rfl⟩

lemma mapError (h : FailsBy e x x') (g : ε → ε') :
    FailsBy (g e) (x.mapError g) (x'.mapError g) := by
  rcases h with rfl | ⟨e', rfl, rfl⟩
  · exact .inl rfl
  · exact .inr ⟨g e', rfl, rfl⟩

end FailsBy

/-! ### Lists with two names -/

/-- The lists of nodes that have an older name. -/
inductive Renamed where
  | allowlist
  | denylist

namespace Renamed

def name : Renamed → String
  | .allowlist => "allowlistNodes"
  | .denylist => "denylistNodes"

def oldName : Renamed → String
  | .allowlist => "whitelistNodes"
  | .denylist => "blacklistNodes"

end Renamed

namespace Options

/-- The settings that a record asks for in a graph. -/
def settings (g : Graph) (p : Procedure) (options : Json) : Except CommandError Config := do
  (← ofJson options).resolve g p

/-- The value under the newer name. -/
def newer (o : Options) : Renamed → Option Json
  | .allowlist => o.allowlistNodes
  | .denylist => o.denylistNodes

/-- The same options with another value under the older name. -/
def withOlder (o : Options) (value : Option Json) : Renamed → Options
  | .allowlist => { o with whitelistNodes := value }
  | .denylist => { o with blacklistNodes := value }

/-- The same options without any list of nodes. -/
def withoutLists (o : Options) : Options :=
  { o with
    allowlistNodes := none, whitelistNodes := none, denylistNodes := none, blacklistNodes := none
    endNodes := none, terminatorNodes := none }

/-- The filter that the lists of nodes make up. -/
def nodeFilter (o : Options) (g : Graph) : Except InvalidInput NodeFilter := do
  return (← o.nodeLists).resolve g

variable {o : Options} {g : Graph} {p : Procedure} {list : Renamed} {value : Option Json}

/-- The lists of nodes are looked at last, and nothing else depends on them. -/
lemma resolve_eq : o.resolve g p = (do
    let c ← o.withoutLists.resolve g p
    let nodeFilter ← (o.nodeFilter g).mapError .invalidInput
    return { c with nodeFilter }) := by
  unfold nodeFilter resolve
  simp only [bind_assoc, pure_bind]
  -- what is bound after the lists does not matter to the checks before them
  cases o.nodeLists <;> rfl

lemma withoutLists_withOlder : (o.withOlder value list).withoutLists = o.withoutLists := by
  cases list <;> rfl

lemma resolve_withOlder : (o.withOlder value list).resolve g p = (do
    let c ← o.withoutLists.resolve g p
    let nodeFilter ← ((o.withOlder value list).nodeFilter g).mapError .invalidInput
    return { c with nodeFilter }) := by
  rw [resolve_eq, withoutLists_withOlder]

/-! ### Reading the lists -/

lemma exists_of_optionalListOfJson {key : String} {j : Json} {refs : Option (List NodeRef)}
    (hvalue : value = some j) (hnull : j ≠ .null)
    (h : NodeRef.optionalListOfJson key value = .ok refs) : ∃ list, refs = some list := by
  rw [hvalue, NodeRef.optionalListOfJson_some hnull] at h
  cases hread : NodeRef.listOfJson key j with
  | error e =>
    rw [hread] at h
    cases h
  | ok list =>
    rw [hread] at h
    cases h
    exact ⟨list, rfl⟩

lemma nodeFilter_withOlder_of_ok {refs : Option (List NodeRef)} {j : Json}
    (hnewer : o.newer list = some j) (hnull : j ≠ .null)
    (h : NodeRef.optionalListOfJson list.oldName value = .ok refs) :
    (o.withOlder value list).nodeFilter g = (o.withOlder none list).nodeFilter g := by
  unfold nodeFilter nodeLists
  simp only [bind_assoc, pure_bind]
  cases list with
  | allowlist =>
    refine Except.bind_congr fun allowlist hallow => ?_
    obtain ⟨_, rfl⟩ := exists_of_optionalListOfJson hnewer hnull hallow
    dsimp only [withOlder, Renamed.oldName] at h ⊢
    rw [h, Except.ok_bind]
    rfl
  | denylist =>
    refine Except.bind_congr fun _ _ => Except.bind_congr fun _ _ =>
      Except.bind_congr fun denylist hdeny => ?_
    obtain ⟨_, rfl⟩ := exists_of_optionalListOfJson hnewer hnull hdeny
    dsimp only [withOlder, Renamed.oldName] at h ⊢
    rw [h, Except.ok_bind]
    rfl

lemma failsBy_nodeFilter_withOlder {e : InvalidInput}
    (h : NodeRef.optionalListOfJson list.oldName value = .error e) :
    FailsBy e ((o.withOlder value list).nodeFilter g) ((o.withOlder none list).nodeFilter g) := by
  unfold nodeFilter
  refine FailsBy.bind_left ?_ _ _
  unfold nodeLists
  cases list with
  | allowlist =>
    refine FailsBy.bind fun _ => ?_
    dsimp only [withOlder, Renamed.oldName] at h ⊢
    rw [h]
    exact .inl rfl
  | denylist =>
    refine FailsBy.bind fun _ => FailsBy.bind fun _ => FailsBy.bind fun _ => ?_
    dsimp only [withOlder, Renamed.oldName] at h ⊢
    rw [h]
    exact .inl rfl

lemma resolve_withOlder_of_ok {refs : Option (List NodeRef)} {j : Json}
    (hnewer : o.newer list = some j) (hnull : j ≠ .null)
    (h : NodeRef.optionalListOfJson list.oldName value = .ok refs) :
    (o.withOlder value list).resolve g p = (o.withOlder none list).resolve g p := by
  rw [resolve_withOlder, resolve_withOlder, nodeFilter_withOlder_of_ok hnewer hnull h]

lemma failsBy_resolve_withOlder {e : InvalidInput}
    (h : NodeRef.optionalListOfJson list.oldName value = .error e) :
    FailsBy (.invalidInput e) ((o.withOlder value list).resolve g p)
      ((o.withOlder none list).resolve g p) := by
  rw [resolve_withOlder, resolve_withOlder]
  exact FailsBy.bind fun _ =>
    ((failsBy_nodeFilter_withOlder h).mapError CommandError.invalidInput).bind_left _ _

/-! ### Reading the record -/

/-- Two records agree on everything but one member. -/
def AgreeOff (key : String) (fields fields' : Json.Fields) : Prop :=
  ∀ other ≠ key, fields.lookup other = fields'.lookup other

variable {fields fields' : Json.Fields}

lemma ne_null_of_member {key : String} {j : Json} (h : member fields key = some j) :
    j ≠ .null := by
  unfold member at h
  split at h
  · cases h
  · next hnull => exact fun hj => hnull (hj ▸ h)

lemma ofFields_of_agreeOff (h : AgreeOff list.oldName fields fields') :
    ofFields fields' = (do
      return (← ofFields fields).withOlder (member fields' list.oldName) list) := by
  have hmember : ∀ key ≠ list.oldName, member fields' key = member fields key := fun key hkey => by
    unfold member
    rw [h key hkey]
  have htyped : ∀ {α : Type} (key : String) (decode : Json → Except InvalidConfig α),
      key ≠ list.oldName → typed fields' key decode = typed fields key decode :=
    fun key decode hkey => by
      unfold typed
      rw [hmember key hkey]
  unfold ofFields
  simp only [bind_assoc, pure_bind]
  cases list <;> simp (disch := decide) only [htyped, hmember] <;> rfl

lemma newer_of_ofFields (h : ofFields fields = .ok o) : o.newer list = member fields list.name := by
  have hread : (do return (← ofFields fields).newer list) =
      (do let _ ← ofFields fields; return member fields list.name) := by
    unfold ofFields
    simp only [bind_assoc, pure_bind]
    cases list <;> rfl
  rw [h] at hread
  exact Except.ok.inj hread

/-- What a record says under the older name of a list. -/
def olderRefs (fields : Json.Fields) (list : Renamed) :
    Except InvalidInput (Option (List NodeRef)) :=
  NodeRef.optionalListOfJson list.oldName (member fields list.oldName)

/-- The settings that a record asks for without the value under the older name. -/
def settingsWithoutOlder (g : Graph) (p : Procedure) (fields : Json.Fields) (list : Renamed) :
    Except CommandError Config := do
  (← (ofFields fields).mapError .invalidConfig).withOlder none list |>.resolve g p

lemma settings_of_ok (hagree : AgreeOff list.oldName fields fields')
    (hnewer : member fields list.name ≠ none) {refs : Option (List NodeRef)}
    (h : olderRefs fields' list = .ok refs) :
    settings g p (.obj fields') = settingsWithoutOlder g p fields list := by
  obtain ⟨j, hj⟩ := Option.ne_none_iff_exists'.mp hnewer
  unfold settings settingsWithoutOlder
  rw [ofJson, ofFields_of_agreeOff hagree]
  cases ho : ofFields fields with
  | error e => rfl
  | ok o =>
    have hnew : o.newer list = some j := (newer_of_ofFields ho).trans hj
    exact resolve_withOlder_of_ok hnew (ne_null_of_member hj) h

lemma failsBy_settings (hagree : AgreeOff list.oldName fields fields') {e : InvalidInput}
    (h : olderRefs fields' list = .error e) :
    FailsBy (.invalidInput e) (settings g p (.obj fields'))
      (settingsWithoutOlder g p fields list) := by
  unfold settings settingsWithoutOlder
  rw [ofJson, ofFields_of_agreeOff hagree]
  cases ofFields fields with
  | error e' => exact .inr ⟨_, rfl, rfl⟩
  | ok o => exact failsBy_resolve_withOlder h

/-- **Superseded lists**: where a list of nodes is given under its newer name, what is given under
the older one decides nothing. It only has to be readable as references: if it is not, the record is
refused for that, or for what is wrong with the rest of it. -/
theorem older_list_is_only_read (hagree : AgreeOff list.oldName fields fields')
    (hnewer : member fields list.name ≠ none) {refs : Option (List NodeRef)}
    (h : olderRefs fields list = .ok refs) :
    (∀ refs', olderRefs fields' list = .ok refs' →
        settings g p (.obj fields') = settings g p (.obj fields)) ∧
      ∀ e, olderRefs fields' list = .error e →
        FailsBy (.invalidInput e) (settings g p (.obj fields')) (settings g p (.obj fields)) := by
  have hbase := settings_of_ok (g := g) (p := p) (fun _ _ => rfl) hnewer h
  refine ⟨fun refs' h' => ?_, fun e h' => ?_⟩
  · rw [hbase, settings_of_ok hagree hnewer h']
  · rw [hbase]
    exact failsBy_settings hagree h'

lemma agreeOff_append (key : String) (value : Json) (fields : Json.Fields) :
    AgreeOff key fields (fields ++ [(key, value)]) := by
  intro other hother
  rw [List.lookup_append]
  have hne : (other == key) = false := beq_eq_false_iff_ne.mpr hother
  simp [List.lookup_cons, hne]

/-- An unknown element id under the older name is not looked up, but a truth value is refused. -/
theorem older_list_is_only_read_twoWay :
    let fields : Json.Fields := [("allowlistNodes", .arr [.ofNat 0])]
    let settings (value : Json) := settings .twoWay (.shaped .paths)
      (.obj (fields ++ [("whitelistNodes", value)]))
    settings (.str "nowhere") = Options.settings .twoWay (.shaped .paths) (.obj fields) ∧
      settings (.bool true) =
        .error (.invalidInput (.notAReference "whitelistNodes" "a boolean")) := by
  intro fields settings
  have hagree : ∀ value, AgreeOff Renamed.allowlist.oldName fields
      (fields ++ [("whitelistNodes", value)]) := fun value => agreeOff_append _ value _
  have hnewer : member fields Renamed.allowlist.name ≠ none := by decide +kernel
  have habsent : olderRefs fields .allowlist = .ok none := rfl
  have hread := fun value => older_list_is_only_read (g := .twoWay) (p := .shaped .paths)
    (hagree value) hnewer habsent
  constructor
  · exact (hread (.str "nowhere")).1 (some [.elementId "nowhere"]) rfl
  · rcases (hread (.bool true)).2 _ rfl with h | ⟨e, -, h⟩
    · exact h
    · cases h

/-- A value under the older name can make a record fail. -/
theorem older_list_is_read : ∃ (fields : Json.Fields) (value : Json),
    member fields "allowlistNodes" ≠ none ∧
      settings .empty (.shaped .paths) (.obj (fields ++ [("whitelistNodes", value)])) ≠
        settings .empty (.shaped .paths) (.obj fields) := by
  refine ⟨[("allowlistNodes", .arr [])], .bool true, by decide +kernel, fun h => ?_⟩
  have hrefused : settings .empty (.shaped .paths)
      (.obj [("allowlistNodes", .arr []), ("whitelistNodes", .bool true)]) =
        .error (.invalidInput (.notAReference "whitelistNodes" "a boolean")) := rfl
  cases hrefused.symm.trans h

end Options

end GraphWalk
