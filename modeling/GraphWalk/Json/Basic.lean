import GraphWalk.Decimal.Basic
import GraphWalk.Word

/-!
JSON values. Whole numbers and decimals are kept apart: a number written with a fraction or an
exponent is a decimal, whatever its value.
-/

namespace GraphWalk

inductive Json.Number where
  | int (n : Int)
  | decimal (d : Decimal)
deriving DecidableEq, Inhabited, Repr

inductive Json where
  | null
  | bool (b : Bool)
  | num (n : Json.Number)
  | str (s : String)
  | arr (items : List Json)
  | obj (fields : List (String × Json))
deriving Inhabited

namespace Json

abbrev Fields := List (String × Json)

mutual

def decEq : (a b : Json) → Decidable (a = b)
  | .null, .null => isTrue rfl
  | .bool a, .bool b => decidable_of_iff (a = b) (by simp)
  | .num a, .num b => decidable_of_iff (a = b) (by simp)
  | .str a, .str b => decidable_of_iff (a = b) (by simp)
  | .arr a, .arr b =>
    match decEqItems a b with
    | isTrue h => isTrue (h ▸ rfl)
    | isFalse h => isFalse (by simpa using h)
  | .obj a, .obj b =>
    match decEqFields a b with
    | isTrue h => isTrue (h ▸ rfl)
    | isFalse h => isFalse (by simpa using h)
  | .null, .bool _ | .null, .num _ | .null, .str _ | .null, .arr _ | .null, .obj _
  | .bool _, .null | .bool _, .num _ | .bool _, .str _ | .bool _, .arr _ | .bool _, .obj _
  | .num _, .null | .num _, .bool _ | .num _, .str _ | .num _, .arr _ | .num _, .obj _
  | .str _, .null | .str _, .bool _ | .str _, .num _ | .str _, .arr _ | .str _, .obj _
  | .arr _, .null | .arr _, .bool _ | .arr _, .num _ | .arr _, .str _ | .arr _, .obj _
  | .obj _, .null | .obj _, .bool _ | .obj _, .num _ | .obj _, .str _ | .obj _, .arr _ =>
    isFalse (by simp)

def decEqItems : (a b : List Json) → Decidable (a = b)
  | [], [] => isTrue rfl
  | [], _ :: _ | _ :: _, [] => isFalse (by simp)
  | a :: as, b :: bs =>
    match decEq a b with
    | isFalse h => isFalse (by simp [h])
    | isTrue h =>
      match decEqItems as bs with
      | isTrue hs => isTrue (by rw [h, hs])
      | isFalse hs => isFalse (by simp [hs])

def decEqFields : (a b : Fields) → Decidable (a = b)
  | [], [] => isTrue rfl
  | [], _ :: _ | _ :: _, [] => isFalse (by simp)
  | (k, a) :: as, (l, b) :: bs =>
    match decEq a b with
    | isFalse h => isFalse (by simp [h])
    | isTrue h =>
      match decEqFields as bs with
      | isFalse hs => isFalse (by simp [hs])
      | isTrue hs => decidable_of_iff (k = l) (by simp [h, hs])

end

instance : DecidableEq Json := decEq

/-- What kind of value this is, with its article. -/
def kind : Json → String
  | .null => "null"
  | .bool _ => "a boolean"
  | .num _ => "a number"
  | .str _ => "a string"
  | .arr _ => "a list"
  | .obj _ => "a map"

def string? : Json → Option String
  | .str s => some s
  | _ => none

def items? : Json → Option (List Json)
  | .arr items => some items
  | _ => none

def fields? : Json → Option Fields
  | .obj fields => some fields
  | _ => none

def int? : Json → Option Int
  | .num (.int n) => some n
  | _ => none

/-- A whole number of at most 64 bits. -/
def unsigned? (j : Json) : Option Nat := do
  let n ← j.int?
  if 0 ≤ n ∧ n < Word.unsignedLimit then some n.toNat else none

/-- A whole number of 64 bits with a sign. -/
def signed? (j : Json) : Option Int := do
  let n ← j.int?
  if -Word.signedLimit ≤ n ∧ n < Word.signedLimit then some n else none

/-- The value of a member, if the value is an object that has it. -/
def get? (j : Json) (key : String) : Option Json := do (← j.fields?).lookup key

def ofNat (n : Nat) : Json := .num (.int n)

def ofInt (n : Int) : Json := .num (.int n)

/-- `null` for an absent value. -/
def ofOption (encode : α → Json) : Option α → Json
  | none => .null
  | some a => encode a

def ofList (encode : α → Json) (as : List α) : Json := .arr (as.map encode)

@[simp] theorem string?_str (s : String) : (Json.str s).string? = some s := rfl

@[simp] theorem items?_arr (items : List Json) : (Json.arr items).items? = some items := rfl

@[simp] theorem fields?_obj (fields : Fields) : (Json.obj fields).fields? = some fields := rfl

theorem unsigned?_ofNat {n : Nat} (h : n < Word.unsignedLimit) :
    (ofNat n).unsigned? = some n := by
  have bounds : (0 : Int) ≤ n ∧ (n : Int) < Word.unsignedLimit := by omega
  rw [unsigned?, show (ofNat n).int? = some (n : Int) from rfl, Option.bind_eq_bind,
    Option.bind_some, if_pos bounds, Int.toNat_natCast]

theorem signed?_ofInt {n : Int} (lower : -Word.signedLimit ≤ n) (upper : n < Word.signedLimit) :
    (ofInt n).signed? = some n := by
  rw [signed?, show (ofInt n).int? = some n from rfl, Option.bind_eq_bind, Option.bind_some,
    if_pos ⟨lower, upper⟩]

end Json

end GraphWalk
