import GraphWalk.Graph.Codec
import Mathlib.Data.List.Forall2

/-!
Nodes, relationships and snapshots come back from JSON as they were written.

A record is read by looking up its members by name, whatever comes behind them. Properties are left
out if there are none, and there are none if they are absent.
-/

namespace GraphWalk

namespace Json

variable {α : Type} {encode : α → Json} {decode : Json → Option α}

lemma listOf?_arr {items : List Json} {as : List α} :
    listOf? decode (.arr items) = some as ↔
      List.Forall₂ (fun j a => decode j = some a) items as := by
  change items.mapM decode = some as ↔ _
  induction items generalizing as with
  | nil =>
    rw [List.forall₂_nil_left_iff]
    exact ⟨fun h => (Option.some.inj h).symm, fun h => h ▸ rfl⟩
  | cons j items ih =>
    rw [List.mapM_cons, List.forall₂_cons_left_iff, Option.bind_eq_bind, Option.bind_eq_some_iff]
    refine exists_congr fun a => ?_
    rw [Option.bind_eq_bind, Option.bind_eq_some_iff]
    constructor
    · rintro ⟨ha, as', has, h⟩
      exact ⟨as', ha, ih.mp has, (Option.some.inj h).symm⟩
    · rintro ⟨as', ha, has, rfl⟩
      exact ⟨ha, as', ih.mpr has, rfl⟩

lemma listOf?_ofList {as : List α} (h : ∀ a ∈ as, decode (encode a) = some a) :
    listOf? decode (ofList encode as) = some as := by
  refine listOf?_arr.mpr ?_
  rw [List.forall₂_map_left_iff, List.forall₂_same]
  exact h

namespace Fields

variable {fields : Fields} {name key : String} {value : Json} {absent : α}

@[simp] lemma required?_cons : required? ((key, value) :: fields) name decode =
    if name = key then decode value else fields.required? name decode := by
  by_cases h : name = key
  · simp [required?, h]
  · have hne : (name == key) = false := beq_eq_false_iff_ne.mpr h
    simp [required?, List.lookup_cons, h, hne]

@[simp] lemma optional?_cons : optional? ((key, value) :: fields) name absent decode =
    if name = key then decode value else fields.optional? name absent decode := by
  by_cases h : name = key
  · simp [optional?, h]
  · have hne : (name == key) = false := beq_eq_false_iff_ne.mpr h
    simp [optional?, List.lookup_cons, h, hne]

@[simp] lemma optional?_properties (properties : Fields) :
    (propertiesField properties).optional? "properties" [] fields? = some properties := by
  cases properties with
  | nil => rfl
  | cons member properties => simp [propertiesField]

/-- The records have the same members of these names. -/
def AgreeOn (names : List String) (fields fields' : Json.Fields) : Prop :=
  ∀ name ∈ names, fields.lookup name = fields'.lookup name

instance (names : List String) (fields fields' : Json.Fields) :
    Decidable (AgreeOn names fields fields') :=
  inferInstanceAs (Decidable (∀ name ∈ names, fields.lookup name = fields'.lookup name))

namespace AgreeOn

variable {names : List String} {fields' : Json.Fields}

lemma required?_eq (h : AgreeOn names fields fields') (hname : name ∈ names) :
    fields'.required? name decode = fields.required? name decode := by
  unfold required?
  rw [h name hname]

lemma optional?_eq (h : AgreeOn names fields fields') (hname : name ∈ names) :
    fields'.optional? name absent decode = fields.optional? name absent decode := by
  unfold optional?
  rw [h name hname]

end AgreeOn

end Fields

/-- The value presents what was written as an object: it has the same members of these names, in
whatever order and among whatever other members. -/
def Presents (names : List String) (written j : Json) : Prop :=
  ∃ fields fields' : Fields, written = .obj fields ∧ j = .obj fields' ∧ fields.AgreeOn names fields'

lemma presents_obj (names : List String) (fields : Fields) :
    Presents names (.obj fields) (.obj fields) :=
  ⟨fields, fields, rfl, rfl, fun _ _ => rfl⟩

end Json

open Json (Fields)

lemma NodeId.ofJson?_toJson {id : NodeId} (h : id.val < Word.unsignedLimit) :
    ofJson? id.toJson = some id := by
  rw [ofJson?, toJson, Json.unsigned?_ofNat h]
  rfl

lemma RelId.ofJson?_toJson {id : RelId} (h : id.val < Word.unsignedLimit) :
    ofJson? id.toJson = some id := by
  rw [ofJson?, toJson, Json.unsigned?_ofNat h]
  rfl

/-- The id can be written as a word. -/
def Node.FitsWords (n : Node) : Prop := n.id.val < Word.unsignedLimit

def Relationship.FitsWords (r : Relationship) : Prop :=
  r.id.val < Word.unsignedLimit ∧ r.source.val < Word.unsignedLimit ∧
    r.target.val < Word.unsignedLimit

lemma Node.ofJson?_obj {fields : Fields} {n : Node}
    (hid : fields.required? "id" NodeId.ofJson? = some n.id)
    (helementId : fields.required? "element_id" Json.string? = some n.elementId)
    (hlabels : fields.optional? "labels" [] (Json.listOf? Json.string?) = some n.labels)
    (hproperties : fields.optional? "properties" [] Json.fields? = some n.properties) :
    ofJson? (.obj fields) = some n := by
  simp [ofJson?, Json.record?, hid, helementId, hlabels, hproperties]

lemma Relationship.ofJson?_obj {fields : Fields} {r : Relationship}
    (hid : fields.required? "id" RelId.ofJson? = some r.id)
    (htype : fields.required? "rel_type" Json.string? = some r.type)
    (hsource : fields.required? "start" NodeId.ofJson? = some r.source)
    (htarget : fields.required? "end" NodeId.ofJson? = some r.target)
    (hproperties : fields.optional? "properties" [] Json.fields? = some r.properties) :
    ofJson? (.obj fields) = some r := by
  simp [ofJson?, Json.record?, hid, htype, hsource, htarget, hproperties]

lemma Node.ofJson?_toJson {n : Node} (h : n.FitsWords) : ofJson? n.toJson = some n := by
  have hid : NodeId.ofJson? n.id.toJson = some n.id := NodeId.ofJson?_toJson h
  have hlabels : Json.listOf? Json.string? (.ofList .str n.labels) = some n.labels :=
    Json.listOf?_ofList fun _ _ => rfl
  exact ofJson?_obj (by simp [hid]) (by simp) (by simp [hlabels]) (by simp)

lemma Relationship.ofJson?_toJson {r : Relationship} (h : r.FitsWords) :
    ofJson? r.toJson = some r := by
  have hid : RelId.ofJson? r.id.toJson = some r.id := RelId.ofJson?_toJson h.1
  have hsource : NodeId.ofJson? r.source.toJson = some r.source := NodeId.ofJson?_toJson h.2.1
  have htarget : NodeId.ofJson? r.target.toJson = some r.target := NodeId.ofJson?_toJson h.2.2
  exact ofJson?_obj (by simp [hid]) (by simp) (by simp [hsource]) (by simp [htarget]) (by simp)

lemma Snapshot.ofJson?_toJson {s : Snapshot} (hnodes : ∀ n ∈ s.nodes, n.FitsWords)
    (hrelationships : ∀ r ∈ s.relationships, r.FitsWords) : ofJson? s.toJson = some s := by
  have hn := Json.listOf?_ofList fun n hn => Node.ofJson?_toJson (hnodes n hn)
  have hr := Json.listOf?_ofList fun r hr => Relationship.ofJson?_toJson (hrelationships r hr)
  simp [ofJson?, toJson, Json.record?, hn, hr]

/-! ### Records as objects without order -/

lemma Node.ofJson?_eq_of_presents {written j : Json} (h : Json.Presents fieldNames written j) :
    ofJson? j = ofJson? written := by
  obtain ⟨fields, fields', rfl, rfl, hagree⟩ := h
  simp (disch := decide) only [ofJson?, Json.record?, hagree.required?_eq, hagree.optional?_eq,
    Option.bind_eq_bind, Option.bind_some]

lemma Relationship.ofJson?_eq_of_presents {written j : Json}
    (h : Json.Presents fieldNames written j) : ofJson? j = ofJson? written := by
  obtain ⟨fields, fields', rfl, rfl, hagree⟩ := h
  simp (disch := decide) only [ofJson?, Json.record?, hagree.required?_eq, hagree.optional?_eq,
    Option.bind_eq_bind, Option.bind_some]

lemma Snapshot.ofJson?_eq_of_presents {written j : Json}
    (h : Json.Presents fieldNames written j) : ofJson? j = ofJson? written := by
  obtain ⟨fields, fields', rfl, rfl, hagree⟩ := h
  simp (disch := decide) only [ofJson?, Json.record?, hagree.optional?_eq,
    Option.bind_eq_bind, Option.bind_some]

end GraphWalk
