import GraphWalk.Proofs.Filter.Incidence
import GraphWalk.Proofs.Filter.Rendering

/-!
The types that a filter can name.

A store takes in every type that is not empty and has no bar and no arrow head. The text of a filter
is trimmed, however, and a star stands for every type. So of the types in a store a filter can name
those that have no white space at their ends and are not a star, and no others.
-/

namespace GraphWalk

open Text

/-! ### Types that a store takes in -/

/-- Some store takes in a relationship of the type. -/
def Storable (type : String) : Prop :=
  ∃ (g g' : Graph) (r : Relationship),
    g.Reachable ∧ r.type = type ∧ g.insertRelationship r = .ok g'

variable {g : Graph} {p : PlainGraph} {node : NodeId} {r : Relationship} {type : String}

lemma Graph.Reachable.insertRelationship {g' : Graph} (h : g.Reachable)
    (hg : g.insertRelationship r = .ok g') : g'.Reachable := by
  obtain ⟨ops, rfl⟩ := h
  refine ⟨ops ++ [.insertRelationship r], ?_⟩
  rw [Graph.after_append, Graph.after_cons, Graph.perform, hg]
  rfl

lemma validType_iff :
    ValidType type ↔
      type ≠ "" ∧ '|' ∉ type.toList ∧ '<' ∉ type.toList ∧ '>' ∉ type.toList := by
  refine and_congr_right fun _ => ⟨fun h => ⟨?_, ?_, ?_⟩, fun ⟨hbar, hin, hout⟩ c hc => ?_⟩
  · exact fun hmem => absurd (h _ hmem) (by decide)
  · exact fun hmem => absurd (h _ hmem) (by decide)
  · exact fun hmem => absurd (h _ hmem) (by decide)
  · have hne : (c ≠ '|' ∧ c ≠ '<') ∧ c ≠ '>' :=
      ⟨⟨fun h => hbar (h ▸ hc), fun h => hin (h ▸ hc)⟩, fun h => hout (h ▸ hc)⟩
    simpa [Graph.isReserved] using hne

lemma validType_of_storable (h : Storable type) : ValidType type := by
  obtain ⟨g, g', r, hreach, rfl, hg⟩ := h
  obtain ⟨p, hp⟩ := hreach.exists_tracks
  rw [hp.insertRelationship] at hg
  cases ho : p.relationshipObjection? r with
  | none => exact (PlainGraph.relationshipObjection?_eq_none_iff.mp ho).1
  | some e =>
    rw [ho] at hg
    cases hg

lemma exists_insertRelationship_of_validType (h : ValidType type) :
    ∃ (g g' : Graph) (r : Relationship), g.Reachable ∧ r.type = type ∧
      g.insertRelationship r = .ok g' ∧ g'.relationship? r.id = some r := by
  let g := Graph.empty.after [.addNode [] [], .addNode [] []]
  let r : Relationship := ⟨⟨0⟩, type, ⟨0⟩, ⟨1⟩, []⟩
  have hreach : g.Reachable := Graph.reachable_after_empty _
  obtain ⟨p, hp⟩ := hreach.exists_tracks
  have ho : p.relationshipObjection? r = none := by
    refine PlainGraph.relationshipObjection?_eq_none_iff.mpr ⟨h, ?_, ?_, fun hid => ?_⟩
    · exact (hp.isSome_node?_iff ⟨0⟩).mp (by decide +kernel)
    · exact (hp.isSome_node?_iff ⟨1⟩).mp (by decide +kernel)
    · obtain ⟨s, hs, hid⟩ := List.mem_map.mp hid
      have hsome := hp.relationship?_eq_some_iff.mpr ⟨hs, hid⟩
      have hnone : g.relationship? ⟨0⟩ = none := by decide +kernel
      rw [hnone] at hsome
      cases hsome
  refine ⟨g, g.putRelationship r, r, hreach, rfl, ?_, ?_⟩
  · rw [hp.insertRelationship, ho]
  · exact (hp.putRelationship r ho).relationship?_eq_some_iff.mpr ⟨List.mem_concat_self, rfl⟩

lemma storable_iff : Storable type ↔ ValidType type := by
  refine ⟨validType_of_storable, fun h => ?_⟩
  obtain ⟨g, g', r, hreach, htype, hg, -⟩ := exists_insertRelationship_of_validType h
  exact ⟨g, g', r, hreach, htype, hg⟩

lemma exists_stored_of_validType (h : ValidType type) :
    ∃ (g : Graph) (p : PlainGraph), g.Reachable ∧ g.Tracks p ∧
      ∃ r ∈ p.relationships, r.type = type := by
  obtain ⟨g, g', r, hreach, htype, hg, hget⟩ := exists_insertRelationship_of_validType h
  have hreach' := hreach.insertRelationship hg
  obtain ⟨p, hp⟩ := hreach'.exists_tracks
  exact ⟨g', p, hreach', hp, r, (hp.relationship?_eq_some_iff.mp hget).1, htype⟩

/-! ### Types that a filter names -/

namespace RelationshipFilter

/-- The type by itself, with an arrow head behind it and with one in front of it: as the text of a
filter it stands for the relationships of the type at the node, for those that leave the node and
for those that arrive at it. -/
structure Names (type : String) (g : Graph) (node : NodeId) : Prop where
  both : g.Lists ((parse type).expand g node) fun r =>
    (r.source = node ∨ r.target = node) ∧ r.type = type
  outgoing : g.Lists ((parse (type ++ ">")).expand g node) fun r =>
    r.source = node ∧ r.type = type
  incoming : g.Lists ((parse ("<" ++ type)).expand g node) fun r =>
    r.target = node ∧ r.type = type

lemma lists_expand_singleton (h : g.Tracks p) (type : Option String) (d : Direction) :
    g.Lists ((⟨[⟨type, d⟩]⟩ : RelationshipFilter).expand g node) fun r =>
      (r.source = node ∨ r.target = node) ∧ type.all (· == r.type) = true ∧
        d.admits (r.directionFrom node) = true := by
  refine (lists_expand h _ node).congr fun r => ?_
  simp [RelationshipFilter.admits, isAny, Entry.admits, Entry.admitsType]

lemma parse_render_entry (hname : TypeName type) (hin : '<' ∉ type.toList)
    (hout : '>' ∉ type.toList) (d : Direction) :
    parse (Entry.render ⟨some type, d⟩) = ⟨[⟨some type, d⟩]⟩ := by
  have htypes : ∀ e ∈ [(⟨some type, d⟩ : Entry)], ∀ t ∈ e.type, t = type := by simp
  have hiff := parse_render_iff (f := ⟨[⟨some type, d⟩]⟩) fun e he t ht => htypes e he t ht ▸ hname
  rw [render, List.map_singleton, String.intercalate_singleton] at hiff
  refine hiff.mpr fun e he => Entry.isLegible_of_no_arrow ?_ fun t ht => ?_
  · rw [List.mem_singleton.mp he]
    simp
  · rw [htypes e he t ht]
    exact ⟨hin, hout⟩

lemma queries_parse (h : ValidType type) :
    (parse type).queries = [⟨Entry.typeOf? (trim type.toList), .both⟩] := by
  obtain ⟨-, hbar, hin, hout⟩ := validType_iff.mp h
  have hsub := (trim_isInfix type.toList).subset
  have hfront := Entry.frontArrow_eq_self <|
    Entry.beginsWithArrow_of_notMem (mt (@hsub _) hin) (mt (@hsub _) hout)
  have hback := Entry.backArrow_eq_self <|
    Entry.endsWithArrow_of_notMem (mt (@hsub _) hin) (mt (@hsub _) hout)
  rw [parse, split_eq_singleton hbar]
  by_cases hne : trim type.toList = []
  · rw [List.filterMap_cons_none (Entry.parse?_eq_none hne), hne]
    rfl
  · have hread := Entry.parse?_eq rfl hne hfront hback
    rw [trim_trim] at hread
    rw [List.filterMap_cons_some hread]
    rfl

lemma mem_expand_parse_iff (hp : g.Tracks p) (h : ValidType type) :
    r ∈ (parse type).expand g node ↔
      r ∈ p.relationships ∧ (r.source = node ∨ r.target = node) ∧
        (Entry.typeOf? (trim type.toList)).all (· == r.type) = true := by
  rw [mem_expand_iff hp, admits_eq_any, queries_parse h]
  simp [Entry.admits, Entry.admitsType, Direction.admits]

lemma Names.of_typeName (h : g.Tracks p) (hname : TypeName type) (hin : '<' ∉ type.toList)
    (hout : '>' ∉ type.toList) : Names type g node := by
  have htype (r : Relationship) : (some type).all (· == r.type) = true ↔ r.type = type := by
    rw [Option.all_some, beq_iff_eq, eq_comm]
  have hparse := parse_render_entry hname hin hout
  constructor
  · rw [show parse type = _ from hparse .both]
    refine (lists_expand_singleton h _ _).congr fun r => ?_
    rw [htype, and_iff_left (show Direction.both.admits _ = true from rfl)]
  · rw [show parse (type ++ ">") = _ from hparse .outgoing]
    refine (lists_expand_singleton h _ _).congr fun r => ?_
    rw [htype, Direction.admits_outgoing_iff]
    tauto
  · rw [show parse ("<" ++ type) = _ from hparse .incoming]
    refine (lists_expand_singleton h _ _).congr fun r => ?_
    rw [htype]
    constructor
    · rintro ⟨hends, hsame, hseen⟩
      exact ⟨(Direction.admits_incoming_iff hends).mp hseen, hsame⟩
    · rintro ⟨htarget, hsame⟩
      exact ⟨.inr htarget, hsame, (Direction.admits_incoming_iff (.inr htarget)).mpr htarget⟩

lemma typeOf?_of_names (h : ValidType type)
    (hnames : ∀ g : Graph, g.Reachable → ∀ node, Names type g node) :
    Entry.typeOf? (trim type.toList) = some type := by
  cases hread : Entry.typeOf? (trim type.toList) with
  | none =>
    -- what is read as every type lists a relationship of another one
    have hother : ValidType (type ++ "'") := by
      obtain ⟨-, hbar, hin, hout⟩ := validType_iff.mp h
      simp [validType_iff, hbar, hin, hout]
    obtain ⟨g, p, hreach, hp, r, hr, htype⟩ := exists_stored_of_validType hother
    have hmem : r ∈ (parse type).expand g r.source := by
      rw [mem_expand_parse_iff hp h, hread]
      exact ⟨hr, .inl rfl, rfl⟩
    have hsame : r.type = type := (((hnames g hreach r.source).both.2 r).mp hmem).2.2
    simp [hsame, ← String.toList_inj] at htype
  | some name =>
    obtain ⟨g, p, hreach, hp, r, hr, htype⟩ := exists_stored_of_validType h
    have hget : g.relationship? r.id = some r := hp.relationship?_eq_some_iff.mpr ⟨hr, rfl⟩
    have hmem := ((hnames g hreach r.source).both.2 r).mpr ⟨hget, .inl rfl, htype⟩
    rw [mem_expand_parse_iff hp h, hread] at hmem
    have hname : name = r.type := beq_iff_eq.mp hmem.2.2
    rw [hname, htype]

/-- **Naming**: a store takes in the types that are not empty and have no bar and no arrow head; of
these a filter can name the ones that have no white space at their ends and are not a star. -/
theorem storable_type_is_named_iff (type : String) :
    (Storable type ↔
        type ≠ "" ∧ '|' ∉ type.toList ∧ '<' ∉ type.toList ∧ '>' ∉ type.toList) ∧
      (Storable type →
        ((∀ g : Graph, g.Reachable → ∀ node, Names type g node) ↔
          trim type.toList = type.toList ∧ type ≠ "*")) := by
  refine ⟨storable_iff.trans validType_iff, fun hstorable => ⟨fun hnames => ?_, ?_⟩⟩
  · have hread := typeOf?_of_names (validType_of_storable hstorable) hnames
    obtain ⟨htrim, -, hstar⟩ := Entry.typeOf?_eq_some_iff.mp hread
    exact ⟨htrim, hstar⟩
  · rintro ⟨htrim, hstar⟩ g hreach node
    obtain ⟨hne, hbar, hin, hout⟩ := validType_iff.mp (validType_of_storable hstorable)
    obtain ⟨p, hp⟩ := hreach.exists_tracks
    exact Names.of_typeName hp ⟨hne, htrim, hstar, hbar⟩ hin hout

theorem storable_type_is_named_iff_twoWay :
    Storable "R" ∧ Graph.twoWay.Reachable ∧ (∀ node, Names "R" .twoWay node) ∧
      ((parse "R").expand .twoWay ⟨1⟩).map (·.id.val) = [0] ∧
      ((parse "R>").expand .twoWay ⟨1⟩).map (·.id.val) = [] ∧
      ((parse "<R").expand .twoWay ⟨1⟩).map (·.id.val) = [0] := by
  have hstorable := (storable_type_is_named_iff "R").1.mpr (by decide)
  have hreach : Graph.twoWay.Reachable := Graph.reachable_after_empty _
  have hnames := ((storable_type_is_named_iff "R").2 hstorable).mpr (by decide) .twoWay hreach
  exact ⟨hstorable, hreach, hnames, by decide +kernel, by decide +kernel, by decide +kernel⟩

/-- A star and a type with white space at its ends are stored, but as the text of a filter the one
lists every type and the other a type without the white space. -/
theorem star_and_padded_type_are_not_named :
    let g := Graph.empty.after [.addNode [] [], .addNode [] [],
      .addRelationship ⟨0⟩ ⟨1⟩ "*", .addRelationship ⟨0⟩ ⟨1⟩ " R "]
    Storable "*" ∧ Storable " R " ∧ g.Reachable ∧ ¬ Names "*" g ⟨0⟩ ∧ ¬ Names " R " g ⟨0⟩ := by
  have hstar : Storable "*" := storable_iff.mpr (validType_iff.mpr (by decide))
  have hpadded : Storable " R " := storable_iff.mpr (validType_iff.mpr (by decide))
  refine ⟨hstar, hpadded, Graph.reachable_after_empty _, fun hnames => ?_, fun hnames => ?_⟩
  · have hlisted := (hnames.both.2 ⟨⟨1⟩, " R ", ⟨0⟩, ⟨1⟩, []⟩).mp (by decide +kernel)
    exact absurd hlisted.2.2 (by decide)
  · have hlisted := (hnames.both.2 ⟨⟨1⟩, " R ", ⟨0⟩, ⟨1⟩, []⟩).mpr (by decide +kernel)
    exact absurd hlisted (by decide +kernel)

end RelationshipFilter

end GraphWalk
