import GraphWalk.Decimal.Basic
import GraphWalk.Decimal.Binary

/-!
The shortest decimal that reads back as a given binary magnitude: of all decimals that round to it
one with the fewest digits, of those the nearest, of two equally near the even one.
-/

namespace GraphWalk.Binary

/-- Compares `a * 10 ^ k` with `b * 2 ^ q`. -/
def comparePowers (a : Nat) (k : Int) (b : Nat) (q : Int) : Ordering :=
  compare (a * Nat.pow 10 k.toNat * Nat.pow 2 (-q).toNat)
    (b * Nat.pow 2 q.toNat * Nat.pow 10 (-k).toNat)

/-- Whether `s * 10 ^ k` rounds to `b`. In quarters of the last place the reals that do lie between
two below and two above; below a power of two the lower distance is one. -/
def isReadFrom (b : Binary) (s : Nat) (k : Int) : Bool :=
  let below := if b.mantissa = Nat.pow 2 52 ∧ b.exponent ≠ minExponent then 1 else 2
  let lower := comparePowers s k (4 * b.mantissa - below) (b.exponent - 2)
  let upper := comparePowers s k (4 * b.mantissa + 2) (b.exponent - 2)
  if b.mantissa % 2 = 0 then lower.isGE && upper.isLE else lower.isGT && upper.isLT

/-- The multiple of `10 ^ k` at or below `b`, as a count. -/
def gridBelow (b : Binary) (k : Int) : Nat :=
  (b.fraction.1 * Nat.pow 10 (-k).toNat) / (b.fraction.2 * Nat.pow 10 k.toNat)

/-- The multiple of `10 ^ k` that reads as `b`, if its neighbours on that grid hold one. -/
def onGrid? (b : Binary) (k : Int) : Option Nat :=
  let s := b.gridBelow k
  match b.isReadFrom s k, b.isReadFrom (s + 1) k with
  | false, false => none
  | true, false => some s
  | false, true => some (s + 1)
  | true, true =>
    match comparePowers (2 * s + 1) k (2 * b.mantissa) b.exponent with
    | .lt => some (s + 1)
    | .gt => some s
    | .eq => some (s + s % 2)

/-- The first hit on grids that get finer, from `10 ^ k` on. -/
def scanGrids (b : Binary) : Nat → Int → Option (Nat × Int)
  | 0, _ => none
  | more + 1, k =>
    match b.onGrid? k with
    | some s => some (s, k)
    | none => b.scanGrids more (k - 1)

/-- An exponent of ten whose power lies above `b`; `30103 / 100000` is `log 2 / log 10` to seven
places. -/
def decimalBound (b : Binary) : Int :=
  (b.exponent + b.mantissa.log2 + 1) * 30103 / 100000 + 1

/-- The shortest decimal of `b`: seventeen digits are always enough. -/
def shortest (negative : Bool) (b : Binary) : Decimal :=
  if b.mantissa = 0 then ⟨negative, 0, 0⟩
  else
    match b.scanGrids 20 b.decimalBound with
    | some (s, k) => ⟨negative, s, k⟩
    | none => ⟨negative, b.mantissa, b.exponent⟩

example : (ofScientific? 1 (-1)).map (shortest false) = some ⟨false, 1, -1⟩ := by decide +kernel
example : (ofScientific? 5 (-324)).map (shortest false) = some ⟨false, 5, -324⟩ := by
  decide +kernel
example : (ofScientific? 17976931348623157 292).map (shortest true) =
    some ⟨true, 17976931348623157, 292⟩ := by decide +kernel

end GraphWalk.Binary
