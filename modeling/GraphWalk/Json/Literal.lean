import GraphWalk.Json.Basic
import GraphWalk.Decimal.Shortest

/-!
Number literals. A whole number of 64 bits keeps its exact value; every other literal is read as a
binary magnitude and kept as its shortest decimal, so that two spellings of one number agree.
-/

namespace GraphWalk.Json

/-- A number as written, digits as numbers below ten. -/
structure Literal where
  negative : Bool
  whole : List Nat
  fraction : List Nat
  exponent : Option Int
deriving Inhabited

namespace Literal

/-- Reads digits into a significand for as long as it fits 64 bits; gives the digits left over
too. -/
def accumulate (significand : Nat) : List Nat → Nat × List Nat
  | [] => (significand, [])
  | d :: ds =>
    if significand * 10 + d < Word.unsignedLimit then accumulate (significand * 10 + d) ds
    else (significand, d :: ds)

/-- A whole number of 64 bits, if it is one. A zero with a minus sign is not. -/
def integer? (negative : Bool) (magnitude : Nat) : Option Int :=
  if !negative then some magnitude
  else if 0 < magnitude ∧ magnitude ≤ Word.signedLimit then some (-magnitude)
  else none

/-- The value, unless its magnitude is too large. Digits of the whole part that find no room in the
significand still count as places, those of the fraction are dropped. -/
def value? (l : Literal) : Option Number :=
  let (head, excess) := accumulate 0 l.whole
  let exact :=
    if excess.isEmpty ∧ l.fraction.isEmpty ∧ l.exponent.isNone then integer? l.negative head
    else none
  match exact with
  | some n => some (.int n)
  | none =>
    let (significand, dropped) := accumulate head l.fraction
    let places : Int := excess.length - (l.fraction.length - dropped.length : Nat)
    (Binary.ofScientific? significand (places + l.exponent.getD 0)).map fun b =>
      .decimal (b.shortest l.negative)

example : value? ⟨true, [1, 2], [], none⟩ = some (.int (-12)) := by decide +kernel
example : value? ⟨true, [0], [], none⟩ = some (.decimal ⟨true, 0, 0⟩) := by decide +kernel
example : value? ⟨false, [1], [0], none⟩ = some (.decimal ⟨false, 1, 0⟩) := by decide +kernel
example : value? ⟨false, [1], [], some 309⟩ = none := by decide +kernel

end Literal

end GraphWalk.Json
