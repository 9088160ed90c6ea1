import GraphWalk.Command.Codec
import GraphWalk.Proofs.Graph.Codec

/-!
Commands and the records of a graph come back from JSON.

The members of an object have no order, and a reader passes over those it does not know. So what is
written comes back from every value that has the members written, not only from the one that lists
them as the writer does.
-/

namespace GraphWalk

/-! ### Commands -/

namespace Command

variable {c : Command} {p : Procedure} {fields fields' : Json.Fields}

/-- The levels can be written as words with a sign. -/
def FitsWords : Command → Prop
  | .expand _ _ _ minLevel maxLevel =>
    (-Word.signedLimit ≤ minLevel ∧ minLevel < Word.signedLimit) ∧
      -Word.signedLimit ≤ maxLevel ∧ maxLevel < Word.signedLimit
  | .shaped .. => True

lemma ofJson?_of_name (h : fields.lookup "command" = some (.str (nameOf p))) :
    ofJson? (.obj fields) = ofRecord? p (.obj fields) := by
  have hname : (Json.obj fields).get? "command" = some (.str (nameOf p)) := h
  unfold ofJson?
  dsimp only
  rw [hname, Option.bind_eq_bind, Option.bind_some, Json.string?_str, Option.bind_eq_bind,
    Option.bind_some, procedureOf?_nameOf, Option.bind_eq_bind, Option.bind_some]

lemma ofRecord?_eq (h : fields.AgreeOn (fieldNames p) fields') :
    ofRecord? p (.obj fields') = ofRecord? p (.obj fields) := by
  rcases p with _ | ⟨_ | _ | _ | _⟩ <;>
    simp (disch := decide) only [ofRecord?, Json.record?, h.required?_eq, h.optional?_eq,
      Option.bind_eq_bind, Option.bind_some]

lemma optionalText?_ofOption (text : Option String) :
    optionalText? (.ofOption .str text) = some text := by
  cases text <;> rfl

lemma ofJson?_toJson (h : c.FitsWords) : ofJson? c.toJson = some c := by
  cases c with
  | expand start relationshipFilter labelFilter minLevel maxLevel =>
    have hmin := Json.signed?_ofInt h.1.1 h.1.2
    have hmax := Json.signed?_ofInt h.2.1 h.2.2
    unfold toJson
    rw [ofJson?_of_name rfl]
    simp [ofRecord?, Json.record?, optionalText?_ofOption, hmin, hmax]
  | shaped shape start options =>
    unfold toJson
    rw [ofJson?_of_name rfl]
    simp [ofRecord?, Json.record?]

/-- The value presents the command as an object. -/
def IsWritten (c : Command) (j : Json) : Prop :=
  Json.Presents ("command" :: fieldNames c.procedure) c.toJson j

lemma lookup_command (h : c.toJson = .obj fields) :
    fields.lookup "command" = some (.str (nameOf c.procedure)) := by
  cases c <;> cases h <;> rfl

lemma ofJson?_of_isWritten (h : c.FitsWords) {j : Json} (hj : c.IsWritten j) :
    ofJson? j = some c := by
  obtain ⟨fields, fields', hfields, rfl, hagree⟩ := hj
  have hname := lookup_command hfields
  have hname' := (hagree "command" List.mem_cons_self).symm.trans hname
  have hmembers : fields.AgreeOn (fieldNames c.procedure) fields' := fun name hmem =>
    hagree name (List.mem_cons_of_mem _ hmem)
  rw [ofJson?_of_name hname', ofRecord?_eq hmembers, ← ofJson?_of_name hname, ← hfields]
  exact ofJson?_toJson h

end Command

/-! ### Graph records -/

def Node.IsWritten (n : Node) (j : Json) : Prop := Json.Presents fieldNames n.toJson j

def Relationship.IsWritten (r : Relationship) (j : Json) : Prop :=
  Json.Presents fieldNames r.toJson j

namespace Snapshot

/-- All ids can be written as words. -/
structure FitsWords (s : Snapshot) : Prop where
  nodes : ∀ n ∈ s.nodes, n.FitsWords
  relationships : ∀ r ∈ s.relationships, r.FitsWords

/-- The value presents the snapshot as an object, and so do the values in its lists with the nodes
and relationships. -/
def IsWritten (s : Snapshot) (j : Json) : Prop :=
  ∃ nodes relationships, List.Forall₂ Node.IsWritten s.nodes nodes ∧
    List.Forall₂ Relationship.IsWritten s.relationships relationships ∧
    Json.Presents fieldNames
      (.obj [("nodes", .arr nodes), ("relationships", .arr relationships)]) j

end Snapshot

lemma Node.ofJson?_of_isWritten {n : Node} (h : n.FitsWords) {j : Json} (hj : n.IsWritten j) :
    ofJson? j = some n :=
  (ofJson?_eq_of_presents hj).trans (ofJson?_toJson h)

lemma Relationship.ofJson?_of_isWritten {r : Relationship} (h : r.FitsWords) {j : Json}
    (hj : r.IsWritten j) : ofJson? j = some r :=
  (ofJson?_eq_of_presents hj).trans (ofJson?_toJson h)

lemma Snapshot.ofJson?_of_isWritten {s : Snapshot} (h : s.FitsWords) {j : Json}
    (hj : s.IsWritten j) : ofJson? j = some s := by
  obtain ⟨nodes, relationships, hnodes, hrelationships, hpresents⟩ := hj
  have hn : Json.listOf? Node.ofJson? (.arr nodes) = some s.nodes := by
    have hall := (List.forall₂_and_left s.nodes nodes).mpr ⟨h.nodes, hnodes⟩
    exact Json.listOf?_arr.mpr (hall.imp fun n j hj => Node.ofJson?_of_isWritten hj.1 hj.2).flip
  have hr : Json.listOf? Relationship.ofJson? (.arr relationships) = some s.relationships := by
    have hall := (List.forall₂_and_left s.relationships relationships).mpr
      ⟨h.relationships, hrelationships⟩
    exact Json.listOf?_arr.mpr
      (hall.imp fun r j hj => Relationship.ofJson?_of_isWritten hj.1 hj.2).flip
  rw [ofJson?_eq_of_presents hpresents]
  simp [ofJson?, Json.record?, hn, hr]

/-- **Round trip**: commands with levels of 64 bits, and graph records with ids of 64 bits, are what
is decoded from the JSON they are encoded as, and from any other that presents it. -/
theorem records_come_back_from_json :
    (∀ c : Command, c.FitsWords →
      Command.ofJson? c.toJson = some c ∧ ∀ j, c.IsWritten j → Command.ofJson? j = some c) ∧
    (∀ n : Node, n.FitsWords →
      Node.ofJson? n.toJson = some n ∧ ∀ j, n.IsWritten j → Node.ofJson? j = some n) ∧
    (∀ r : Relationship, r.FitsWords →
      Relationship.ofJson? r.toJson = some r ∧
        ∀ j, r.IsWritten j → Relationship.ofJson? j = some r) ∧
    ∀ s : Snapshot, s.FitsWords →
      Snapshot.ofJson? s.toJson = some s ∧ ∀ j, s.IsWritten j → Snapshot.ofJson? j = some s := by
  refine ⟨fun c h => ⟨Command.ofJson?_toJson h, fun j => Command.ofJson?_of_isWritten h⟩,
    fun n h => ⟨Node.ofJson?_toJson h, fun j => Node.ofJson?_of_isWritten h⟩,
    fun r h => ⟨Relationship.ofJson?_toJson h, fun j => Relationship.ofJson?_of_isWritten h⟩,
    fun s h => ⟨Snapshot.ofJson?_toJson h.nodes h.relationships,
      fun j => Snapshot.ofJson?_of_isWritten h⟩⟩

/-- A command with the least and the greatest level, whose members are sorted, and the node with the
greatest id, among whose members there is an unknown one. -/
theorem records_come_back_from_json_sorted :
    let c : Command := .expand .null none (some "+A") (-9223372036854775808) 9223372036854775807
    let n : Node := ⟨⟨18446744073709551615⟩, "last", ["A"], []⟩
    Command.ofJson? c.toJson = some c ∧
      Command.ofJson? (.obj [("command", .str "Expand"), ("labelFilter", .str "+A"),
        ("maxLevel", .ofInt 9223372036854775807), ("minLevel", .ofInt (-9223372036854775808)),
        ("relationshipFilter", .null), ("start", .null)]) = some c ∧
      Snapshot.ofJson? (.obj [("nodes", .arr [.obj [("element_id", .str "last"),
        ("id", .ofNat 18446744073709551615), ("labels", .arr [.str "A"]), ("weight", .ofNat 1)]]),
        ("relationships", .arr [])]) = some ⟨[n], []⟩ := by
  intro c n
  obtain ⟨hcommand, -, -, hsnapshot⟩ := records_come_back_from_json
  have hc : c.FitsWords := by
    unfold Command.FitsWords
    decide
  have hs : Snapshot.FitsWords ⟨[n], []⟩ :=
    { nodes := fun m hm => by
        rw [List.mem_singleton.mp hm]
        unfold Node.FitsWords
        decide
      relationships := fun _ hr => absurd hr List.not_mem_nil }
  refine ⟨(hcommand c hc).1, (hcommand c hc).2 _ ?_, (hsnapshot _ hs).2 _ ?_⟩
  · exact ⟨_, _, rfl, rfl, by decide +kernel⟩
  · have hn : n.IsWritten (.obj [("element_id", .str "last"), ("id", .ofNat 18446744073709551615),
        ("labels", .arr [.str "A"]), ("weight", .ofNat 1)]) := ⟨_, _, rfl, rfl, by decide +kernel⟩
    exact ⟨_, _, .cons hn .nil, .nil, Json.presents_obj _ _⟩

end GraphWalk
