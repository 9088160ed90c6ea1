/-!
The ranges of numbers of 64 bits.
-/

namespace GraphWalk.Word

/-- Two to the power of 64: numbers without a sign lie below it. -/
def unsignedLimit : Nat := Nat.pow 2 64

/-- Two to the power of 63: numbers with a sign lie below it and not below its negation. -/
def signedLimit : Nat := Nat.pow 2 63

end GraphWalk.Word
