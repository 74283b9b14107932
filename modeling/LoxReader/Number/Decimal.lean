import LoxReader.Text

/-!
# Decimals

A decimal is a count of units together with the number of places behind the point: what a
sequence of digits with an optional fraction stands for, and what is written back as one.
-/

namespace LoxReader

/-- The number `units / 10 ^ places`. -/
structure Decimal where
  units : Nat
  places : Nat
  deriving DecidableEq, Repr

namespace Decimal

/-- The value of a run of digits, read to the right of the digits that make up `value`. -/
def readOn (value : Nat) (digits : Text) : Nat :=
  digits.foldl (fun n c => 10 * n + (c.toNat - '0'.toNat)) value

/-- The decimal with these digits before and behind the point. -/
def ofDigits (whole fraction : Text) : Decimal :=
  ⟨readOn (readOn 0 whole) fraction, fraction.length⟩

/-- The digits behind the point, without closing zeros. -/
def fractionDigits (d : Decimal) : Text :=
  let digits := Nat.toDigits 10 (d.units % Nat.pow 10 d.places)
  ((List.leftpad d.places '0' digits).reverse.dropWhile (· = '0')).reverse

/-- The shortest text for a decimal: no closing zeros in the fraction, and no point without one. -/
def text (d : Decimal) : Text :=
  let whole := Text.ofNat (d.units / Nat.pow 10 d.places)
  match d.fractionDigits with
  | [] => whole
  | digits => whole ++ '.' :: digits

end Decimal

end LoxReader
