/-!
Finite decimals and their written form: positional up to sixteen places before the point and four
zeros behind it, scientific outside that range, always with a point or an exponent.
-/

namespace GraphWalk

/-- The number `significand * 10 ^ exponent` with a sign; a zero has a sign too. -/
structure Decimal where
  negative : Bool
  significand : Nat
  exponent : Int
deriving DecidableEq, Inhabited, Repr

namespace Decimal

def digits (d : Decimal) : List Char := Nat.toDigits 10 d.significand

/-- How many places stand before the point when `d` is written out in full. -/
def point (d : Decimal) : Int := d.digits.length + d.exponent

def zeros (n : Int) : List Char := List.replicate n.toNat '0'

/-- An exponent, always with its sign. -/
def signed (n : Int) : List Char := (if 0 ≤ n then ['+'] else []) ++ (toString n).toList

/-- One digit before the point, the rest behind it, and the power of ten of the first digit. -/
def scientific (d : Decimal) : List Char :=
  let exponent := 'e' :: signed (d.point - 1)
  match d.digits with
  | first :: second :: rest => first :: '.' :: second :: rest ++ exponent
  | short => short ++ exponent

/-- The written form without its sign. -/
def magnitude (d : Decimal) : List Char :=
  if d.significand = 0 then ['0', '.', '0']
  else if 0 ≤ d.exponent ∧ d.point ≤ 16 then d.digits ++ zeros d.exponent ++ ['.', '0']
  else if 0 < d.point ∧ d.point ≤ 16 then
    d.digits.take d.point.toNat ++ '.' :: d.digits.drop d.point.toNat
  else if -5 < d.point ∧ d.point ≤ 0 then ['0', '.'] ++ zeros (-d.point) ++ d.digits
  else d.scientific

def render (d : Decimal) : String :=
  String.ofList (if d.negative then '-' :: d.magnitude else d.magnitude)

example : render ⟨false, 15, -1⟩ = "1.5" := by decide +kernel
example : render ⟨true, 225, -2⟩ = "-2.25" := by decide +kernel
example : render ⟨false, 1, 3⟩ = "1000.0" := by decide +kernel
example : render ⟨false, 1, 16⟩ = "1e+16" := by decide +kernel
example : render ⟨false, 125, -7⟩ = "0.0000125" := by decide +kernel
example : render ⟨false, 125, -8⟩ = "1.25e-6" := by decide +kernel
example : render ⟨true, 0, 0⟩ = "-0.0" := by decide +kernel

end Decimal

end GraphWalk
