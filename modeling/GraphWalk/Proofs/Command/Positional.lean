import GraphWalk.Proofs.Command.Checks

/-!
Expansion by position is expansion by a record.

Positional arguments are turned into settings directly, a record is read and resolved. A record that
spells the arguments out leaves everything else to the defaults, so the two ways meet in the same
settings, and they refuse the same levels.
-/

namespace GraphWalk

namespace Options

/-- The members in which a record spells positional arguments out. -/
def positionalKeys : List String :=
  ["relationshipFilter", "labelFilter", "minLevel", "maxLevel", "uniqueness"]

/-- A member has the value; where there is none it is `null` or left out. -/
def Holds (fields : Json.Fields) (key : String) (value : Option Json) : Prop :=
  fields.lookup key = value ∨ value = none ∧ fields.lookup key = some .null

/-- A record spells positional arguments out, and the policy that goes with them, and says nothing
else. -/
structure Spells (fields : Json.Fields) (relationshipFilter labelFilter : Option String)
    (minLevel maxLevel : ℤ) : Prop where
  relationshipFilter : Holds fields "relationshipFilter" (relationshipFilter.map .str)
  labelFilter : Holds fields "labelFilter" (labelFilter.map .str)
  minLevel : fields.lookup "minLevel" = some (.ofInt minLevel)
  maxLevel : fields.lookup "maxLevel" = some (.ofInt maxLevel)
  uniqueness : fields.lookup "uniqueness" = some (.str "RELATIONSHIP_PATH")
  others : ∀ key ∉ positionalKeys, Holds fields key none

/-- The options that such a record is read as. -/
def positional (relationshipFilter labelFilter : Option String) (minLevel maxLevel : ℤ) : Options :=
  { relationshipFilter, labelFilter, minLevel := some minLevel, maxLevel := some maxLevel
    uniqueness := some "RELATIONSHIP_PATH" }

variable {fields : Json.Fields} {key : String} {relationshipFilter labelFilter : Option String}
  {minLevel maxLevel : ℤ} {g : Graph}

/-! ### Reading the record -/

lemma Holds.member_eq_none (h : Holds fields key none) : member fields key = none := by
  rcases h with h | ⟨-, h⟩ <;> rw [member, h]

lemma holds_none_of_keys {keys : List String} (h : ∀ p ∈ fields, p.1 ∈ keys) :
    ∀ key ∉ keys, Holds fields key none := by
  intro key hkey
  refine .inl (List.lookup_eq_none_iff.mpr fun p hp => ?_)
  rw [bne_iff_ne]
  rintro rfl
  exact hkey (h p hp)

lemma member_eq_some {value : Json} (h : fields.lookup key = some value) (hvalue : value ≠ .null) :
    member fields key = some value := by
  rw [member, h]
  split
  · next hnull => exact absurd (Option.some.inj hnull) hvalue
  · rfl

section Typed

variable {α : Type} {decode : Json → Except InvalidConfig α}

lemma typed_of_holds_none (h : Holds fields key none) : typed fields key decode = .ok none := by
  rw [typed, h.member_eq_none]

lemma typed_of_lookup {value : Json} {a : α} (h : fields.lookup key = some value)
    (hvalue : value ≠ .null) (hdecode : decode value = .ok a) :
    typed fields key decode = .ok (some a) := by
  rw [typed, member_eq_some h hvalue]
  dsimp only
  rw [hdecode]
  rfl

lemma Spells.typed_eq_ok_none (h : Spells fields relationshipFilter labelFilter minLevel maxLevel)
    (key : String) (hkey : key ∉ positionalKeys) : typed fields key decode = .ok none :=
  typed_of_holds_none (h.others key hkey)

lemma Spells.member_eq_none (h : Spells fields relationshipFilter labelFilter minLevel maxLevel)
    (key : String) (hkey : key ∉ positionalKeys) : member fields key = none :=
  (h.others key hkey).member_eq_none

end Typed

lemma typed_text {s : String} (h : fields.lookup key = some (.str s)) :
    typed fields key text = .ok (some s) :=
  typed_of_lookup h Json.noConfusion rfl

lemma typed_optional_text {text? : Option String} (h : Holds fields key (text?.map .str)) :
    typed fields key text = .ok text? := by
  cases text? with
  | none => exact typed_of_holds_none h
  | some s =>
    rcases h with h | ⟨h, -⟩
    · exact typed_text h
    · cases h

lemma typed_integer {n : ℤ} (h : fields.lookup key = some (.ofInt n))
    (hn : -Word.signedLimit ≤ n ∧ n < Word.signedLimit) :
    typed fields key integer = .ok (some n) := by
  refine typed_of_lookup h Json.noConfusion ?_
  unfold integer
  rw [Json.signed?_ofInt hn.1 hn.2]

lemma Spells.ofFields_eq (h : Spells fields relationshipFilter labelFilter minLevel maxLevel)
    (hmin : -Word.signedLimit ≤ minLevel ∧ minLevel < Word.signedLimit)
    (hmax : -Word.signedLimit ≤ maxLevel ∧ maxLevel < Word.signedLimit) :
    ofFields fields = .ok (positional relationshipFilter labelFilter minLevel maxLevel) := by
  unfold ofFields
  rw [h.typed_eq_ok_none "bfs" (by decide),
    h.typed_eq_ok_none "filterStartNode" (by decide), typed_optional_text h.labelFilter,
    h.typed_eq_ok_none "limit" (by decide), typed_integer h.maxLevel hmax,
    typed_integer h.minLevel hmin, h.typed_eq_ok_none "optional" (by decide),
    h.typed_eq_ok_none "recentWindow" (by decide),
    typed_optional_text h.relationshipFilter, h.typed_eq_ok_none "sample" (by decide),
    typed_text h.uniqueness, h.member_eq_none "allowlistNodes" (by decide),
    h.member_eq_none "whitelistNodes" (by decide),
    h.member_eq_none "denylistNodes" (by decide),
    h.member_eq_none "blacklistNodes" (by decide),
    h.member_eq_none "endNodes" (by decide),
    h.member_eq_none "terminatorNodes" (by decide)]
  rfl

/-! ### Resolving it -/

lemma resolve_positional_of_error {e : CommandError} (h : level minLevel = .error e) :
    (positional relationshipFilter labelFilter minLevel maxLevel).resolve g (.shaped .paths) =
      .error e :=
  Except.bind_eq_error_iff.mpr (.inr ⟨(), rfl, Except.bind_eq_error_iff.mpr (.inl h)⟩)

lemma resolve_positional_of_ok {least : ℕ} (h : level minLevel = .ok least) :
    (positional relationshipFilter labelFilter minLevel maxLevel).resolve g (.shaped .paths) =
      .ok { relationshipFilter := .parseOption relationshipFilter
            labelFilter := .parseOption labelFilter
            minLevel := least
            maxLevel := bound maxLevel
            uniqueness := .once .relationship .path } := by
  have hpolicy : Uniqueness.parseOption (some "RELATIONSHIP_PATH") .default =
      .ok (.once .relationship .path) := by decide +kernel
  exact Except.bind_eq_ok_iff.mpr ⟨(), rfl, Except.bind_eq_ok_iff.mpr ⟨least, h,
    Except.bind_eq_ok_iff.mpr ⟨_, hpolicy, rfl⟩⟩⟩

end Options

namespace Executor

variable {fields : Json.Fields} {relationshipFilter labelFilter : Option String}
  {minLevel maxLevel : ℤ} {g : Graph}

/-- Arguments and record ask for the same settings, or are refused for the same reason. -/
lemma exists_asks_of_spells
    (h : Options.Spells fields relationshipFilter labelFilter minLevel maxLevel)
    (hmin : -Word.signedLimit ≤ minLevel ∧ minLevel < Word.signedLimit)
    (hmax : -Word.signedLimit ≤ maxLevel ∧ maxLevel < Word.signedLimit) (start : Json) :
    ∃ r, (Command.expand start relationshipFilter labelFilter minLevel maxLevel).Asks g r ∧
      (Command.shaped .paths start (.obj fields)).Asks g r := by
  have hoptions : Options.ofJson (.obj fields) =
      .ok (.positional relationshipFilter labelFilter minLevel maxLevel) := by
    rw [Options.ofJson, h.ofFields_eq hmin hmax]
    rfl
  rcases hlevel : Options.level minLevel with e | least
  · exact ⟨_, .level hlevel, .shaped hoptions (Options.resolve_positional_of_error hlevel)⟩
  · exact ⟨_, .expand hlevel, .shaped hoptions (Options.resolve_positional_of_ok hlevel)⟩

/-- **Position and record**: an expansion by position has the same answer or the same error as one
by a record that spells the arguments out. -/
theorem execute_expand_eq_record
    (h : Options.Spells fields relationshipFilter labelFilter minLevel maxLevel)
    (hmin : -Word.signedLimit ≤ minLevel ∧ minLevel < Word.signedLimit)
    (hmax : -Word.signedLimit ≤ maxLevel ∧ maxLevel < Word.signedLimit)
    (e : Executor) (fuel : ℕ) (start : Json) :
    e.execute fuel (.expand start relationshipFilter labelFilter minLevel maxLevel) =
      e.execute fuel (.shaped .paths start (.obj fields)) := by
  obtain ⟨g, k⟩ := e
  obtain ⟨r, hexpand, hrecord⟩ := exists_asks_of_spells (g := g) h hmin hmax start
  have hprepare :
      (⟨g, k⟩ : Executor).prepare (.expand start relationshipFilter labelFilter minLevel maxLevel) =
        (⟨g, k⟩ : Executor).prepare (.shaped .paths start (.obj fields)) := by
    rw [prepare, prepare, hexpand.config_eq, hrecord.config_eq]
    rfl
  rw [execute, execute, hprepare]
  rfl

/-- The record here leaves one filter `null`: along relationships of one type only there is one path
from the first of two nodes joined both ways. -/
theorem execute_expand_eq_record_twoWay :
    let fields : Json.Fields := [("labelFilter", .null), ("maxLevel", .ofInt 3),
      ("minLevel", .ofInt 1), ("relationshipFilter", .str "R>"),
      ("uniqueness", .str "RELATIONSHIP_PATH")]
    let e : Executor := ⟨.twoWay, .never⟩
    Options.Spells fields (some "R>") none 1 3 ∧
      e.execute 12 (.expand (.ofInt 0) (some "R>") none 1 3) =
        some (.ok (.paths [some ⟨⟨0⟩, [⟨⟨0⟩, ⟨1⟩⟩]⟩])) ∧
      e.execute 12 (.shaped .paths (.ofInt 0) (.obj fields)) =
        some (.ok (.paths [some ⟨⟨0⟩, [⟨⟨0⟩, ⟨1⟩⟩]⟩])) := by
  intro fields e
  have hspells : Options.Spells fields (some "R>") none 1 3 :=
    { relationshipFilter := .inl rfl
      labelFilter := .inr ⟨rfl, rfl⟩
      minLevel := rfl
      maxLevel := rfl
      uniqueness := rfl
      others := Options.holds_none_of_keys (by decide) }
  have hexpand : e.execute 12 (.expand (.ofInt 0) (some "R>") none 1 3) =
      some (.ok (.paths [some ⟨⟨0⟩, [⟨⟨0⟩, ⟨1⟩⟩]⟩])) := by decide +kernel
  have hrecord := execute_expand_eq_record hspells (by decide) (by decide) e 12 (.ofInt 0)
  exact ⟨hspells, hexpand, hrecord ▸ hexpand⟩

end Executor

end GraphWalk
