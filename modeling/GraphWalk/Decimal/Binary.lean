/-!
Binary floating-point magnitudes of 53 bits, with exact rounding: to nearest, ties to even. A
magnitude of `2 ^ 1024` or more has no such form.
-/

namespace GraphWalk

/-- The magnitude `mantissa * 2 ^ exponent`. -/
structure Binary where
  mantissa : Nat
  exponent : Int
deriving DecidableEq, Inhabited, Repr

namespace Binary

def minExponent : Int := -1074

def maxExponent : Int := 971

def zero : Binary := ⟨0, minExponent⟩

/-- Numerator and denominator of `num / den / 2 ^ e`. -/
def unscale (num den : Nat) (e : Int) : Nat × Nat :=
  (num * Nat.pow 2 (-e).toNat, den * Nat.pow 2 e.toNat)

/-- The integer nearest to `num / den`, of two the even one. -/
def roundHalfEven (num den : Nat) : Nat :=
  let whole := num / den
  match compare (2 * (num % den)) den with
  | .lt => whole
  | .gt => whole + 1
  | .eq => whole + whole % 2

/-- The exponent at which `num / den` has a mantissa of 53 bits, not below the least one. -/
def exponentFor (num den : Nat) : Int :=
  let guess : Int := num.log2 - den.log2 - 53
  let (n, d) := unscale num den guess
  max (if n < Nat.pow 2 53 * d then guess else guess + 1) minExponent

/-- The magnitude nearest to `num / den`. -/
def nearest? (num den : Nat) : Option Binary :=
  if num = 0 then some zero
  else
    let exponent := exponentFor num den
    let (n, d) := unscale num den exponent
    let mantissa := roundHalfEven n d
    let rounded : Binary :=
      if mantissa = Nat.pow 2 53 then ⟨Nat.pow 2 52, exponent + 1⟩ else ⟨mantissa, exponent⟩
    if rounded.exponent ≤ maxExponent then some rounded else none

/-- Numerator and denominator of a magnitude. -/
def fraction (b : Binary) : Nat × Nat :=
  (b.mantissa * Nat.pow 2 b.exponent.toNat, Nat.pow 2 (-b.exponent).toNat)

def mul? (a b : Binary) : Option Binary :=
  nearest? (a.fraction.1 * b.fraction.1) (a.fraction.2 * b.fraction.2)

def div? (a b : Binary) : Option Binary :=
  nearest? (a.fraction.1 * b.fraction.2) (a.fraction.2 * b.fraction.1)

/-- The greatest power of ten below `2 ^ 1024`. -/
def maxPower : Nat := 308

/-- Division by `10 ^ e`, in strides of the greatest power of ten. -/
def divPower? (a : Binary) (e : Nat) : Option Binary :=
  if _ : e ≤ maxPower then do a.div? (← nearest? (Nat.pow 10 e) 1)
  else if a.mantissa = 0 then some a
  else do (← a.div? (← nearest? (Nat.pow 10 maxPower) 1)).divPower? (e - maxPower)
termination_by e
decreasing_by simp only [maxPower] at *; omega

def mulPower? (a : Binary) (e : Nat) : Option Binary :=
  if e ≤ maxPower then do a.mul? (← nearest? (Nat.pow 10 e) 1)
  else if a.mantissa = 0 then some a
  else none

/-- `significand * 10 ^ exponent`, rounded once for the significand, once for the power of ten and
once for their product or quotient. -/
def ofScientific? (significand : Nat) (exponent : Int) : Option Binary := do
  let s ← nearest? significand 1
  if 0 ≤ exponent then s.mulPower? exponent.toNat else s.divPower? (-exponent).toNat

example : ofScientific? 15 (-1) = some ⟨3 * Nat.pow 2 51, -52⟩ := by decide +kernel
example : ofScientific? 1 309 = none := by decide +kernel

end Binary

end GraphWalk
