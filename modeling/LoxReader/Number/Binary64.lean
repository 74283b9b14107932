import LoxReader.Number.Decimal

/-!
# Numbers in binary64

A number is kept as its sign and the remaining 63 bits of its interchange format, read as a
natural number, the `code`. Codes ascend with the magnitude: a finite one is
`exponent * 2 ^ 52 + significand` and stands for `significand * 2 ^ exponent` units of
`2 ^ (-1074)`, the code behind the last finite one is infinity, and all above are not numbers.
-/

namespace LoxReader

structure Binary64 where
  negative : Bool
  code : Nat
  code_lt : code < Nat.pow 2 63
  deriving DecidableEq, Repr

namespace Binary64

/-- The code of infinity. -/
def infinityCode : Nat := 2047 * Nat.pow 2 52

def isNaN (x : Binary64) : Bool := infinityCode < x.code

def isFinite (x : Binary64) : Bool := x.code < infinityCode

/-- Comparison of values: a NaN differs from everything, and both zeros are one number. -/
def equals (x y : Binary64) : Bool :=
  !x.isNaN && !y.isNaN && (x = y || (x.code = 0 && y.code = 0))

/-! ### The interchange format -/

/-- The number with a given pattern of 64 bits. -/
def ofBits (bits : UInt64) : Binary64 :=
  ⟨Nat.pow 2 63 ≤ bits.toNat, bits.toNat % Nat.pow 2 63, Nat.mod_lt _ (by decide)⟩

def toBits (x : Binary64) : UInt64 :=
  .ofNat ((if x.negative then Nat.pow 2 63 else 0) + x.code)

/-! ### Finite values -/

/-- The exponent, counted from the smallest one. -/
def exponent (x : Binary64) : Nat := x.code / Nat.pow 2 52 - 1

def significand (x : Binary64) : Nat := x.code - x.exponent * Nat.pow 2 52

/-- The exact magnitude of a finite number as a decimal. -/
def expansion (x : Binary64) : Decimal :=
  let places := 1074 - x.exponent
  ⟨x.significand * Nat.pow 2 (x.exponent - 1074) * Nat.pow 5 places, places⟩

end Binary64

end LoxReader
