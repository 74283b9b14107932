import LoxReader.Number.Binary64

/-!
# Rounding to binary64

A nonnegative quotient becomes the nearest binary64 number, and a value half way between two
becomes the one with an even code. The quotient is scaled to units of `2 ^ (-1074)` and then cut
to 53 binary digits; a carry out of the significand moves on to the next exponent by itself,
because codes are consecutive there.
-/

namespace LoxReader

/-- The natural number nearest to `num / den`, the even one of two. -/
def roundHalfEven (num den : Nat) : Nat :=
  let below := num / den
  let excess := 2 * (num % den)
  if excess < den then below
  else if den < excess then below + 1
  else below + below % 2

namespace Binary64

/-- The code of the number nearest to `num / den`. -/
def nearestCode (num den : Nat) : Nat :=
  let units := num * Nat.pow 2 1074
  let exponent := (units / den).log2 - 52
  min (exponent * Nat.pow 2 52 + roundHalfEven units (den * Nat.pow 2 exponent)) infinityCode

theorem nearestCode_lt (num den : Nat) : nearestCode num den < Nat.pow 2 63 :=
  Nat.lt_of_le_of_lt (Nat.min_le_right _ _) (by decide)

/-- The number nearest to a decimal. -/
def ofDecimal (d : Decimal) : Binary64 :=
  ⟨false, nearestCode d.units (Nat.pow 10 d.places), nearestCode_lt _ _⟩

end Binary64

end LoxReader
