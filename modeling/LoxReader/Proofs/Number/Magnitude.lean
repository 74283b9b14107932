import LoxReader.Number.Rounding
import Mathlib.Algebra.Order.Field.Power
import Mathlib.Algebra.Order.Field.Rat
import Mathlib.Order.Monotone.Basic
import Mathlib.Tactic.Lemma
import Mathlib.Tactic.Linarith
import Mathlib.Tactic.Ring

/-!
# Magnitudes

The value of a number as its fields give it, and how magnitudes ascend with the codes: from each
code to the next by a power of two that never decreases, also where the exponent changes.
-/

namespace LoxReader

namespace Binary64

/-- The value of a finite number: a sign, a biased exponent in 11 bits and a fraction in 52, in
front of which there is one more bit unless the biased exponent is zero. -/
def value (x : Binary64) : ℚ :=
  let biased : ℕ := x.code / 2 ^ 52
  let fraction : ℕ := x.code % 2 ^ 52
  let magnitude : ℚ :=
    if biased = 0 then fraction * 2 ^ (-1074 : ℤ)
    else (2 ^ 52 + fraction) * 2 ^ ((biased : ℤ) - 1075)
  if x.negative then -magnitude else magnitude

/-- The magnitude that a code stands for, in units of `2 ^ (-1074)`. For the code of infinity it is
the number that would follow the last finite one. -/
def magnitude (code : ℕ) : ℕ := (code - (code / 2 ^ 52 - 1) * 2 ^ 52) * 2 ^ (code / 2 ^ 52 - 1)

/-- The width between the magnitudes of a code and of the next one. -/
def width (code : ℕ) : ℕ := 2 ^ (code / 2 ^ 52 - 1)

/-! ### Codes and magnitudes -/

/-- A code is cut into its exponent and its significand. -/
lemma exists_exponent_significand (code : ℕ) :
    ∃ e r, code = e * 2 ^ 52 + r ∧ r < 2 ^ 53 ∧ (e = 0 ∨ 2 ^ 52 ≤ r) :=
  ⟨code / 2 ^ 52 - 1, code - (code / 2 ^ 52 - 1) * 2 ^ 52, by omega, by omega, by omega⟩

lemma width_eq {e r : ℕ} (hr : r < 2 ^ 53) (he : e = 0 ∨ 2 ^ 52 ≤ r) :
    width (e * 2 ^ 52 + r) = 2 ^ e := by
  have hexponent : (e * 2 ^ 52 + r) / 2 ^ 52 - 1 = e := by omega
  rw [width, hexponent]

/-- A significand may be as large as to carry into the next exponent. -/
lemma magnitude_eq {e r : ℕ} (hr : r ≤ 2 ^ 53) (he : e = 0 ∨ 2 ^ 52 ≤ r) :
    magnitude (e * 2 ^ 52 + r) = r * 2 ^ e := by
  rcases Nat.lt_or_eq_of_le hr with hlt | rfl
  · have hexponent : (e * 2 ^ 52 + r) / 2 ^ 52 - 1 = e := by omega
    rw [magnitude, hexponent, Nat.add_sub_cancel_left]
  · have hexponent : (e * 2 ^ 52 + 2 ^ 53) / 2 ^ 52 - 1 = e + 1 := by omega
    have hsignificand : e * 2 ^ 52 + 2 ^ 53 - (e + 1) * 2 ^ 52 = 2 ^ 52 := by omega
    rw [magnitude, hexponent, hsignificand, Nat.pow_succ (n := 2) (m := e)]
    ring

lemma magnitude_succ (code : ℕ) : magnitude (code + 1) = magnitude code + width code := by
  obtain ⟨e, r, rfl, hr, he⟩ := exists_exponent_significand code
  rw [width_eq hr he, magnitude_eq (Nat.le_of_lt hr) he, Nat.add_assoc,
    magnitude_eq (Nat.succ_le_of_lt hr) (by omega), Nat.succ_mul]

lemma magnitude_strictMono : StrictMono magnitude :=
  strictMono_nat_of_lt_succ fun code => by
    rw [magnitude_succ]
    exact Nat.lt_add_of_pos_right (Nat.two_pow_pos _)

lemma magnitude_zero : magnitude 0 = 0 := by
  rw [magnitude, Nat.zero_div, Nat.zero_sub, Nat.zero_mul]

lemma magnitude_code (x : Binary64) : magnitude x.code = x.significand * 2 ^ x.exponent := rfl

/-! ### The values -/

/-- The least positive number, in whose multiples all magnitudes are counted. -/
def unit : ℚ := 2 ^ (-1074 : ℤ)

lemma unit_pos : 0 < unit := zpow_pos (by norm_num) _

lemma magnitude_mul_unit_strictMono : StrictMono fun code => (magnitude code : ℚ) * unit :=
  fun _ _ h => mul_lt_mul_of_pos_right (Nat.cast_lt.mpr (magnitude_strictMono h)) unit_pos

lemma two_pow_mul_zpow_neg (n : ℕ) : (2 : ℚ) ^ n * 2 ^ (-(n : ℤ)) = 1 := by
  rw [zpow_neg, zpow_natCast]
  exact mul_inv_cancel₀ (pow_ne_zero n two_ne_zero)

lemma two_pow_mul_unit : (2 : ℚ) ^ 1074 * unit = 1 := two_pow_mul_zpow_neg 1074

lemma two_zpow_biased (e : ℕ) : (2 : ℚ) ^ (((e + 1 : ℕ) : ℤ) - 1075) = 2 ^ e * unit := by
  have hexponent : ((e + 1 : ℕ) : ℤ) - 1075 = (e : ℤ) + -1074 := by
    push_cast
    ring
  rw [hexponent, zpow_add₀ (by norm_num), zpow_natCast, unit]

/-- The fields of a number are its code, cut into its exponent and its significand. -/
lemma value_eq (x : Binary64) :
    x.value = if x.negative then -(magnitude x.code * unit) else magnitude x.code * unit := by
  have h : (if x.code / 2 ^ 52 = 0 then ((x.code % 2 ^ 52 : ℕ) : ℚ) * unit
      else (2 ^ 52 + ((x.code % 2 ^ 52 : ℕ) : ℚ)) * 2 ^ (((x.code / 2 ^ 52 : ℕ) : ℤ) - 1075))
        = magnitude x.code * unit := by
    split
    · next hbiased =>
      have hcode : x.code = 0 * 2 ^ 52 + x.code % 2 ^ 52 := by omega
      have hmagnitude := magnitude_eq (e := 0) (r := x.code % 2 ^ 52) (by omega) (.inl rfl)
      rw [← hcode, pow_zero, Nat.mul_one] at hmagnitude
      rw [hmagnitude]
    · next hbiased =>
      obtain ⟨e, he⟩ := Nat.exists_eq_succ_of_ne_zero hbiased
      have hcode : x.code = e * 2 ^ 52 + (2 ^ 52 + x.code % 2 ^ 52) := by omega
      have hmagnitude := magnitude_eq (e := e) (r := 2 ^ 52 + x.code % 2 ^ 52) (by omega) (by omega)
      rw [← hcode] at hmagnitude
      rw [he, Nat.succ_eq_add_one, two_zpow_biased, hmagnitude]
      push_cast
      ring
  exact congrArg (fun v : ℚ => if x.negative then -v else v) h

end Binary64

end LoxReader
