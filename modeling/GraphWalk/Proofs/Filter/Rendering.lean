import GraphWalk.Filter.Relationship
import GraphWalk.Proofs.Text.Split

/-!
Relationship filters that are written down and read back.

An entry is written with at most one arrow head, behind the type if it is outgoing and in front of
it if it is incoming; when a text is read, one arrow head is taken off each end. So an entry comes
back unless its type ends in an arrow head at a side where none was written, or nothing was written
at all.
-/

namespace GraphWalk.RelationshipFilter

open Text

/-- What can stand for a type in the text of a filter, arrow heads apart. -/
structure TypeName (type : String) : Prop where
  nonempty : type ≠ ""
  trimmed : trim type.toList = type.toList
  notStar : type ≠ "*"
  unbarred : '|' ∉ type.toList

namespace Entry

variable {c : Char} {cs text inner body : List Char} {front back : Option Direction}
  {d : Direction} {e : Entry} {type : String}

/-! ### Arrow heads -/

def isArrow (c : Char) : Bool := c = '<' ∨ c = '>'

def beginsWithArrow (cs : List Char) : Bool := cs.head?.any isArrow

def endsWithArrow (cs : List Char) : Bool := cs.getLast?.any isArrow

lemma ofArrow?_eq_none_iff : ofArrow? c = none ↔ isArrow c = false := by
  unfold ofArrow? isArrow
  split <;> simp_all

lemma ofArrow?_eq_some_iff :
    ofArrow? c = some d ↔ c = '<' ∧ d = .incoming ∨ c = '>' ∧ d = .outgoing := by
  unfold ofArrow?
  split <;> simp_all [eq_comm]

lemma beginsWithArrow_of_notMem (hin : '<' ∉ cs) (hout : '>' ∉ cs) :
    beginsWithArrow cs = false := by
  rw [beginsWithArrow, Option.any_eq_false]
  intro c hc
  have hmem : c ∈ cs := List.mem_of_mem_head? hc
  have hne : c ≠ '<' ∧ c ≠ '>' := ⟨fun h => hin (h ▸ hmem), fun h => hout (h ▸ hmem)⟩
  simpa [isArrow] using hne

lemma endsWithArrow_eq_reverse (cs : List Char) :
    endsWithArrow cs = beginsWithArrow cs.reverse := by
  rw [endsWithArrow, beginsWithArrow, List.head?_reverse]

lemma endsWithArrow_of_notMem (hin : '<' ∉ cs) (hout : '>' ∉ cs) :
    endsWithArrow cs = false := by
  rw [endsWithArrow_eq_reverse]
  exact beginsWithArrow_of_notMem (by simpa using hin) (by simpa using hout)

lemma frontArrow_cases (cs : List Char) :
    (beginsWithArrow cs = false ∧ frontArrow cs = (none, cs)) ∨
      (beginsWithArrow cs = true ∧
        ∃ c rest d, cs = c :: rest ∧ ofArrow? c = some d ∧ frontArrow cs = (some d, rest)) := by
  cases cs with
  | nil => exact .inl ⟨rfl, rfl⟩
  | cons c rest =>
    have hbegins : beginsWithArrow (c :: rest) = isArrow c := rfl
    rw [frontArrow, hbegins]
    cases h : ofArrow? c with
    | none => exact .inl ⟨ofArrow?_eq_none_iff.mp h, rfl⟩
    | some d =>
      refine .inr ⟨?_, c, rest, d, rfl, h, rfl⟩
      rw [← Bool.not_eq_false, ← ofArrow?_eq_none_iff, h]
      simp

lemma backArrow_cases (cs : List Char) :
    (endsWithArrow cs = false ∧ backArrow cs = (none, cs)) ∨
      (endsWithArrow cs = true ∧
        ∃ rest c d, cs = rest ++ [c] ∧ ofArrow? c = some d ∧ backArrow cs = (some d, rest)) := by
  rw [endsWithArrow_eq_reverse, backArrow]
  rcases frontArrow_cases cs.reverse with ⟨hno, hfront⟩ | ⟨hyes, c, rest, d, hcs, hd, hfront⟩
  · exact .inl ⟨hno, by simp [hfront]⟩
  · refine .inr ⟨hyes, rest.reverse, c, d, ?_, hd, by rw [hfront]⟩
    rw [← List.reverse_reverse cs, hcs, List.reverse_cons]

lemma frontArrow_eq_self (h : beginsWithArrow cs = false) : frontArrow cs = (none, cs) :=
  ((frontArrow_cases cs).resolve_right fun hyes => by simp [hyes.1] at h).2

lemma backArrow_eq_self (h : endsWithArrow cs = false) : backArrow cs = (none, cs) :=
  ((backArrow_cases cs).resolve_right fun hyes => by simp [hyes.1] at h).2

lemma frontArrow_isInfix (cs : List Char) : (frontArrow cs).2 <:+: cs := by
  rcases frontArrow_cases cs with ⟨-, h⟩ | ⟨-, c, rest, d, hcs, -, h⟩
  · rw [h]
  · rw [h, hcs]
    exact (List.suffix_cons c rest).isInfix

lemma backArrow_isInfix (cs : List Char) : (backArrow cs).2 <:+: cs := by
  rcases backArrow_cases cs with ⟨-, h⟩ | ⟨-, rest, c, d, hcs, -, h⟩
  · rw [h]
  · rw [h, hcs]
    exact (List.prefix_append rest [c]).isInfix

lemma backArrow_concat (h : ofArrow? c = some d) (cs : List Char) :
    backArrow (cs ++ [c]) = (some d, cs) := by
  simp [backArrow, frontArrow, h]

/-! ### Reading an entry -/

/-- The type that is read from between the arrow heads. -/
def typeOf? (cs : List Char) : Option String :=
  if cs.isEmpty ∨ cs = ['*'] then none else some (String.ofList cs)

lemma typeOf?_toList (type : String) :
    typeOf? type.toList = if type = "" ∨ type = "*" then none else some type := by
  have hstar : type.toList = ['*'] ↔ type = "*" := by
    rw [← String.toList_inj]
    rfl
  simp only [typeOf?, List.isEmpty_iff, String.toList_eq_nil_iff, hstar, String.ofList_toList]

lemma typeOf?_eq_some_iff : typeOf? cs = some type ↔ cs = type.toList ∧ type ≠ "" ∧ type ≠ "*" := by
  rw [← String.toList_ofList (l := cs), typeOf?_toList, String.toList_inj]
  split <;> grind

lemma typeOf?_eq_none_iff : typeOf? cs = none ↔ cs = [] ∨ cs = ['*'] := by
  unfold typeOf?
  split <;> simp_all

/-- An entry is what stands between the arrow heads, in the direction that these show together. -/
lemma parse?_eq (htrim : trim text = cs) (hne : cs ≠ []) (hfront : frontArrow cs = (front, inner))
    (hback : backArrow inner = (back, body)) :
    parse? text = some ⟨typeOf? (trim body), combine front back⟩ := by
  have hempty : ¬ cs.isEmpty = true := by rwa [List.isEmpty_iff]
  rw [parse?, htrim]
  dsimp only
  rw [if_neg hempty, hfront]
  dsimp only
  rw [hback]
  rfl

lemma parse?_eq_none (h : trim text = []) : parse? text = none := by
  rw [parse?, h]
  rfl

/-- A type is not longer than what stands between the arrow heads. -/
lemma parse?_ne_of_length_lt (htrim : trim text = cs) (hne : cs ≠ [])
    (hfront : frontArrow cs = (front, inner)) (hback : backArrow inner = (back, body))
    (h : body.length < type.toList.length) : parse? text ≠ some ⟨some type, d⟩ := by
  rw [parse?_eq htrim hne hfront hback]
  intro heq
  have htype : typeOf? (trim body) = some type := congrArg Entry.type (Option.some.inj heq)
  have hle := (trim_isInfix body).length_le
  rw [(typeOf?_eq_some_iff.mp htype).1] at hle
  omega

lemma typeName_of_parse? (hbar : '|' ∉ text) (h : parse? text = some e) (htype : type ∈ e.type) :
    TypeName type := by
  by_cases hne : trim text = []
  · rw [parse?_eq_none hne] at h
    cases h
  · rw [parse?_eq rfl hne rfl rfl] at h
    obtain rfl := Option.some.inj h
    obtain ⟨hbody, hempty, hstar⟩ := typeOf?_eq_some_iff.mp htype
    have hpart : type.toList <:+: text := by
      rw [← hbody]
      exact (trim_isInfix _).trans <| (backArrow_isInfix _).trans <| (frontArrow_isInfix _).trans <|
        trim_isInfix text
    exact ⟨hempty, by rw [← hbody, trim_trim], hstar, fun hmem => hbar (hpart.subset hmem)⟩

/-! ### Reading what was written -/

/-- Something is written, and the type neither begins nor ends in an arrow head where none is
written beside it. -/
def isLegible : Entry → Bool
  | ⟨none, d⟩ => d ≠ .both
  | ⟨some type, .outgoing⟩ => !beginsWithArrow type.toList
  | ⟨some type, .incoming⟩ => !endsWithArrow type.toList
  | ⟨some type, .both⟩ => !beginsWithArrow type.toList && !endsWithArrow type.toList

lemma typeOf?_trim (h : TypeName type) : typeOf? (trim type.toList) = some type :=
  typeOf?_eq_some_iff.mpr ⟨h.trimmed, h.nonempty, h.notStar⟩

lemma toList_ne_nil (h : TypeName type) : type.toList ≠ [] := by
  simpa using h.nonempty

lemma trim_append_arrow (h : TypeName type) :
    trim (type.toList ++ ['>']) = type.toList ++ ['>'] := by
  refine trim_eq_self (fun c hc => ?_) fun c hc => ?_
  · rw [List.head?_append_of_ne_nil _ (toList_ne_nil h), ← h.trimmed] at hc
    exact isBlank_head?_trim _ c hc
  · rw [List.getLast?_concat] at hc
    cases hc
    decide

lemma trim_arrow_cons (h : TypeName type) : trim ('<' :: type.toList) = '<' :: type.toList := by
  refine trim_eq_self (fun c hc => ?_) fun c hc => ?_
  · cases hc
    decide
  · rw [List.getLast?_cons_of_ne_nil (toList_ne_nil h), ← h.trimmed] at hc
    exact isBlank_getLast?_trim _ c hc

lemma frontArrow_append (hne : cs ≠ []) (ds : List Char) :
    frontArrow (cs ++ ds) = ((frontArrow cs).1, (frontArrow cs).2 ++ ds) := by
  obtain ⟨c, rest, rfl⟩ := List.exists_cons_of_ne_nil hne
  rw [List.cons_append, frontArrow, frontArrow]
  cases ofArrow? c <;> rfl

/-- The arrow head that is written behind the type leaves only one in front to be taken off. -/
lemma parse?_outgoing_iff (h : TypeName type) :
    parse? (type.toList ++ ['>']) = some ⟨some type, .outgoing⟩ ↔
      beginsWithArrow type.toList = false := by
  have htrim := trim_append_arrow h
  have hne : type.toList ++ ['>'] ≠ [] := by simp
  have hfront := frontArrow_append (toList_ne_nil h) ['>']
  have hback := backArrow_concat (c := '>') rfl
  rcases frontArrow_cases type.toList with ⟨hno, htype⟩ | ⟨hyes, c, rest, d, hcs, -, htype⟩
  · rw [htype] at hfront
    rw [parse?_eq htrim hne hfront (hback _), typeOf?_trim h]
    exact iff_of_true rfl hno
  · rw [htype] at hfront
    refine iff_of_false (parse?_ne_of_length_lt htrim hne hfront (hback rest) ?_) (by simp [hyes])
    simp [hcs]

/-- The arrow head that is written before the type leaves only one behind it to be taken off. -/
lemma parse?_incoming_iff (h : TypeName type) :
    parse? ('<' :: type.toList) = some ⟨some type, .incoming⟩ ↔
      endsWithArrow type.toList = false := by
  have htrim := trim_arrow_cons h
  have hne : '<' :: type.toList ≠ [] := by simp
  have hfront : frontArrow ('<' :: type.toList) = (some .incoming, type.toList) := rfl
  rcases backArrow_cases type.toList with ⟨hno, hback⟩ | ⟨hyes, rest, c, d, hcs, -, hback⟩
  · rw [parse?_eq htrim hne hfront hback, typeOf?_trim h]
    exact iff_of_true rfl hno
  · refine iff_of_false (parse?_ne_of_length_lt htrim hne hfront hback ?_) (by simp [hyes])
    simp [hcs]

/-- Where no arrow head is written, one is taken off each end. -/
lemma parse?_both_iff (h : TypeName type) :
    parse? type.toList = some ⟨some type, .both⟩ ↔
      beginsWithArrow type.toList = false ∧ endsWithArrow type.toList = false := by
  have hne := toList_ne_nil h
  rcases frontArrow_cases type.toList with ⟨hno, hfront⟩ | ⟨hyes, c, rest, d, hcs, -, hfront⟩
  · rcases backArrow_cases type.toList with ⟨hno', hback⟩ | ⟨hyes, rest, c, d, hcs, -, hback⟩
    · rw [parse?_eq h.trimmed hne hfront hback, typeOf?_trim h]
      exact iff_of_true rfl ⟨hno, hno'⟩
    · refine iff_of_false (parse?_ne_of_length_lt h.trimmed hne hfront hback ?_) (by simp [hyes])
      simp [hcs]
  · refine iff_of_false (parse?_ne_of_length_lt h.trimmed hne hfront rfl ?_) (by simp [hyes])
    rw [hcs, List.length_cons]
    exact Nat.lt_succ_of_le (backArrow_isInfix rest).length_le

/-- An entry that is written down is read back exactly if it is legible. -/
theorem parse?_render_iff (h : ∀ type ∈ e.type, TypeName type) :
    parse? e.render.toList = some e ↔ e.isLegible = true := by
  obtain ⟨_ | type, d⟩ := e
  · cases d <;> decide +kernel
  · have hname : TypeName type := h type rfl
    cases d with
    | outgoing =>
      have htext : (Entry.render ⟨some type, .outgoing⟩).toList = type.toList ++ ['>'] :=
        String.toList_append
      rw [htext, parse?_outgoing_iff hname]
      simp [isLegible]
    | incoming =>
      have htext : (Entry.render ⟨some type, .incoming⟩).toList = '<' :: type.toList :=
        String.toList_append
      rw [htext, parse?_incoming_iff hname]
      simp [isLegible]
    | both =>
      rw [show (Entry.render ⟨some type, .both⟩) = type from rfl, parse?_both_iff hname]
      simp [isLegible]

lemma isLegible_of_no_arrow (hany : e ≠ ⟨none, .both⟩)
    (h : ∀ type ∈ e.type, '<' ∉ type.toList ∧ '>' ∉ type.toList) : e.isLegible = true := by
  obtain ⟨_ | type, d⟩ := e
  · cases d <;> simp [isLegible] at hany ⊢
  · obtain ⟨hin, hout⟩ := h type rfl
    have hbegins := beginsWithArrow_of_notMem hin hout
    have hends := endsWithArrow_of_notMem hin hout
    cases d <;> simp [isLegible, hbegins, hends]

/-! ### Every type in both directions -/

/-- A star, or two different arrow heads with nothing or a star between them. -/
def IsEverything (clause : List Char) : Prop :=
  trim clause = ['*'] ∨
    ∃ inner, (trim clause = '<' :: (inner ++ ['>']) ∨ trim clause = '>' :: (inner ++ ['<'])) ∧
      (trim inner = [] ∨ trim inner = ['*'])

lemma isEverything_of_parse? (h : parse? text = some ⟨none, .both⟩) : IsEverything text := by
  by_cases hne : trim text = []
  · rw [parse?_eq_none hne] at h
    cases h
  rcases frontArrow_cases (trim text) with ⟨-, hfront⟩ | ⟨-, a, inner, d, htext, ha, hfront⟩
  · rcases backArrow_cases (trim text) with ⟨-, hback⟩ | ⟨-, body, b, d, -, hb, hback⟩
    · rw [parse?_eq rfl hne hfront hback, trim_trim] at h
      have htype : typeOf? (trim text) = none := congrArg Entry.type (Option.some.inj h)
      exact .inl ((typeOf?_eq_none_iff.mp htype).resolve_left hne)
    · rw [parse?_eq rfl hne hfront hback] at h
      obtain rfl : d = .both := congrArg Entry.direction (Option.some.inj h)
      simp [ofArrow?_eq_some_iff] at hb
  · rcases backArrow_cases inner with ⟨-, hback⟩ | ⟨-, body, b, d', hinner, hb, hback⟩
    · rw [parse?_eq rfl hne hfront hback] at h
      obtain rfl : d = .both := congrArg Entry.direction (Option.some.inj h)
      simp [ofArrow?_eq_some_iff] at ha
    · rw [parse?_eq rfl hne hfront hback] at h
      have htype : typeOf? (trim body) = none := congrArg Entry.type (Option.some.inj h)
      have hdirection : combine (some d) (some d') = .both :=
        congrArg Entry.direction (Option.some.inj h)
      refine .inr ⟨body, ?_, typeOf?_eq_none_iff.mp htype⟩
      rw [htext, hinner]
      rcases ofArrow?_eq_some_iff.mp ha with ⟨rfl, rfl⟩ | ⟨rfl, rfl⟩ <;>
        rcases ofArrow?_eq_some_iff.mp hb with ⟨rfl, rfl⟩ | ⟨rfl, rfl⟩ <;>
        simp [combine] at hdirection ⊢

lemma parse?_eq_everything_iff : parse? text = some ⟨none, .both⟩ ↔ IsEverything text := by
  refine ⟨isEverything_of_parse?, ?_⟩
  rintro (hstar | ⟨inner, htext | htext, hinner⟩)
  · rw [parse?_eq hstar (by simp) rfl rfl]
    rfl
  · have hback := backArrow_concat (c := '>') rfl inner
    rw [parse?_eq htext (by simp) rfl hback, typeOf?_eq_none_iff.mpr hinner]
    rfl
  · have hback := backArrow_concat (c := '<') rfl inner
    rw [parse?_eq htext (by simp) rfl hback, typeOf?_eq_none_iff.mpr hinner]
    rfl

end Entry

/-! ### Whole filters -/

variable {f : RelationshipFilter} {e : Entry} {s type : String}

lemma exists_clause_of_mem_parse (he : e ∈ (parse s).entries) :
    ∃ clause ∈ split '|' s.toList, Entry.parse? clause = some e := List.mem_filterMap.mp he

lemma typeName_of_mem_parse (he : e ∈ (parse s).entries) (htype : type ∈ e.type) :
    TypeName type := by
  obtain ⟨clause, hclause, hread⟩ := exists_clause_of_mem_parse he
  exact Entry.typeName_of_parse? (not_mem_of_mem_split hclause) hread htype

lemma bar_notMem_render (h : ∀ type ∈ e.type, TypeName type) : '|' ∉ e.render.toList := by
  obtain ⟨_ | type, d⟩ := e
  · cases d <;> decide
  · have hbar : '|' ∉ type.toList := (h type rfl).unbarred
    cases d <;> simpa [Entry.render] using hbar

lemma entries_parse_render (h : ∀ e ∈ f.entries, ∀ type ∈ e.type, TypeName type) :
    (parse f.render).entries = f.entries.filterMap fun e => Entry.parse? e.render.toList := by
  by_cases hne : f.entries = []
  · rw [render, hne]
    decide +kernel
  · have htext : f.render.toList = join '|' (f.entries.map fun e => e.render.toList) := by
      rw [render, String.toList_intercalate, List.map_map]
      rfl
    have hbar : ∀ part ∈ f.entries.map fun e => e.render.toList, '|' ∉ part := by
      intro part hpart
      obtain ⟨e, he, rfl⟩ := List.mem_map.mp hpart
      exact bar_notMem_render (h e he)
    rw [parse, htext, split_join (by simpa using hne) hbar, List.filterMap_map]
    rfl

lemma filterMap_eq_self_iff {α : Type} {read : α → Option α} {as : List α} :
    as.filterMap read = as ↔ ∀ a ∈ as, read a = some a := by
  induction as with
  | nil => simp
  | cons a as ih =>
    rw [List.forall_mem_cons, ← ih]
    cases ha : read a with
    | none =>
      rw [List.filterMap_cons_none ha]
      refine iff_of_false (fun heq => ?_) (by simp)
      have hle := List.length_filterMap_le read as
      rw [heq, List.length_cons] at hle
      omega
    | some b => rw [List.filterMap_cons_some ha, List.cons.injEq, Option.some.injEq]

lemma parse_render_iff (h : ∀ e ∈ f.entries, ∀ type ∈ e.type, TypeName type) :
    parse f.render = f ↔ ∀ e ∈ f.entries, e.isLegible = true := by
  have hentries : parse f.render = f ↔ (parse f.render).entries = f.entries :=
    ⟨congrArg entries, congrArg RelationshipFilter.mk⟩
  rw [hentries, entries_parse_render h, filterMap_eq_self_iff]
  exact forall₂_congr fun e he => Entry.parse?_render_iff (h e he)

/-- **Reading back**: the text of a filter that was read is read as the same filter exactly if every
entry is legible, in particular if no clause names everything and no type has an arrow head. -/
theorem rendering_is_read_back_iff (s : String) :
    (parse (parse s).render = parse s ↔ ∀ e ∈ (parse s).entries, e.isLegible = true) ∧
      ((∀ clause ∈ split '|' s.toList, ¬ Entry.IsEverything clause) →
        (∀ e ∈ (parse s).entries, ∀ type ∈ e.type, '<' ∉ type.toList ∧ '>' ∉ type.toList) →
          parse (parse s).render = parse s) := by
  have hiff := parse_render_iff (f := parse s) fun e he type => typeName_of_mem_parse he
  refine ⟨hiff, fun hclauses htypes => hiff.mpr fun e he => ?_⟩
  obtain ⟨clause, hclause, hread⟩ := exists_clause_of_mem_parse he
  refine Entry.isLegible_of_no_arrow (fun hany => hclauses clause hclause ?_) (htypes e he)
  rwa [hany, Entry.parse?_eq_everything_iff] at hread

theorem rendering_is_read_back_iff_types :
    let s := "KNOWS| >LIKES |<OWNS"
    (∀ clause ∈ split '|' s.toList, ¬ Entry.IsEverything clause) ∧
      (∀ e ∈ (parse s).entries, ∀ type ∈ e.type, '<' ∉ type.toList ∧ '>' ∉ type.toList) ∧
      (parse s).render = "KNOWS|LIKES>|<OWNS" ∧ parse (parse s).render = parse s := by
  intro s
  have hlast : ∀ clause ∈ split '|' s.toList, (trim clause).getLast? = some 'S' := by
    decide +kernel
  have hclauses : ∀ clause ∈ split '|' s.toList, ¬ Entry.IsEverything clause := by
    rintro clause hclause (hstar | ⟨inner, harrows | harrows, -⟩)
    · simpa [hstar] using hlast clause hclause
    · simpa [harrows, List.getLast?_cons] using hlast clause hclause
    · simpa [harrows, List.getLast?_cons] using hlast clause hclause
  have htypes : ∀ e ∈ (parse s).entries, ∀ type ∈ e.type,
      '<' ∉ type.toList ∧ '>' ∉ type.toList := by decide +kernel
  exact ⟨hclauses, htypes, by decide +kernel,
    (rendering_is_read_back_iff s).2 hclauses htypes⟩

/-- Two arrow heads that face each other name everything as well, and nothing is written for them;
so it is not enough to do without the clauses `*` and `<>`. -/
theorem facing_arrows_are_not_read_back :
    let s := "><"
    (∀ clause ∈ split '|' s.toList, trim clause ≠ ['*'] ∧ trim clause ≠ ['<', '>']) ∧
      (∀ e ∈ (parse s).entries, ∀ type ∈ e.type, '<' ∉ type.toList ∧ '>' ∉ type.toList) ∧
      (parse s).entries = [⟨none, .both⟩] ∧ (parse s).render = "" ∧
      parse (parse s).render ≠ parse s := by
  intro s
  have hread : (parse s).entries = [⟨none, .both⟩] := by decide +kernel
  have hempty : (parse s).render = "" := by
    rw [render, hread]
    rfl
  have hlost : parse "" = any := by decide +kernel
  refine ⟨by decide +kernel, fun e he type htype => ?_, hread, hempty, fun heq => ?_⟩
  · rw [hread, List.mem_singleton] at he
    subst he
    cases htype
  · rw [hempty, hlost] at heq
    rw [← heq] at hread
    cases hread

/-- The arrow head of a type is taken for one of the entry. -/
example : (parse ">>A").render = ">A>" ∧ parse ">A>" = parse "A>" := by decide +kernel

end GraphWalk.RelationshipFilter
