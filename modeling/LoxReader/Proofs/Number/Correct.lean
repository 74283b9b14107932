import LoxReader.Proofs.Lexical.Tiling
import LoxReader.Proofs.Number.Numeral
import Mathlib.Algebra.Order.Ring.Abs
import Mathlib.Tactic.LinearCombination

/-!
# Correct rounding

The number of a token is the one that IEEE 754 delivers for the value of its lexeme: the nearest
one, of two such the one with an even significand, and infinity from the point half way behind the
last finite one.
-/

namespace LoxReader

/-- A value on the side of `b` from the point half way between `a` and `b` is as near to `b` as to
`a`, and nearer unless it is that point. -/
lemma abs_sub_le_abs_sub {a b q : ℚ} (hne : a ≠ b) (h : 0 ≤ (b - a) * (2 * q - (a + b))) :
    |q - b| ≤ |q - a| ∧ (|q - b| = |q - a| → 2 * q = a + b) := by
  have hsquares : (q - a) ^ 2 - (q - b) ^ 2 = (b - a) * (2 * q - (a + b)) := by ring
  refine ⟨sq_le_sq.mp (by linarith), fun heq => ?_⟩
  have hzero : (b - a) * (2 * q - (a + b)) = 0 := by
    rw [← hsquares, (sq_eq_sq_iff_abs_eq_abs _ _).mpr heq, sub_self]
  exact sub_eq_zero.mp ((mul_eq_zero.mp hzero).resolve_left (sub_ne_zero.mpr hne.symm))

namespace Binary64

/-- The number `x` is the value `q` rounded: not a NaN and without a sign, infinity from the
point half way behind the last finite number on, zero up to half of the least positive number,
and otherwise a finite number such that none is nearer, and with an even significand if another
one is as near. -/
structure Rounds (x : Binary64) (q : ℚ) : Prop where
  negative : x.negative = false
  isNaN : x.isNaN = false
  infinite : x.code = infinityCode ↔ 2 ^ 1024 - 2 ^ 970 ≤ q
  zero : x.code = 0 ↔ q ≤ 2 ^ (-1075 : ℤ)
  nearest : x.isFinite → ∀ y : Binary64, y.isFinite → |q - x.value| ≤ |q - y.value|
  even : x.isFinite → ∀ y : Binary64, y.isFinite → |q - x.value| = |q - y.value| →
    y.value ≠ x.value → Even x.significand

lemma even_significand {x : Binary64} (h : Even x.code) : Even x.significand := by
  rw [Nat.even_iff] at h ⊢
  simp only [significand, Nat.pow_eq]
  omega

/-! ### Both ends of the range -/

lemma unit_half : unit / 2 = 2 ^ (-1075 : ℤ) := by
  have hexponent : (-1074 : ℤ) = -1075 + 1 := by norm_num
  rw [unit, hexponent, zpow_add_one₀ two_ne_zero, mul_div_cancel_right₀ _ two_ne_zero]

lemma halfway_zero : halfway 0 = 2 ^ (-1075 : ℤ) := by
  have hmidpoint : midpoint (0 * 2 ^ 52 + 0) = 1 := midpoint_eq (by decide) (by decide)
  rw [Nat.zero_mul] at hmidpoint
  rw [halfway, hmidpoint, unit_half, Nat.cast_one, one_mul]

/-- Half way behind the greatest significand of an exponent. -/
lemma halfway_binade {k scale : ℕ} (hunit : 2 ^ scale * unit = 1) :
    halfway ((k + 1 + scale) * 2 ^ 52 + (2 ^ 53 - 1)) = 2 ^ (k + 54) - 2 ^ k := by
  have hcast : ((2 ^ (k + 1 + scale) * (2 * (2 ^ 53 - 1) + 1) : ℕ) : ℚ)
      = 2 ^ (k + 1 + scale) * (2 ^ 54 - 1) := by
    push_cast
    norm_num
  rw [halfway, midpoint_eq (by decide) (.inr (by decide)), hcast, pow_add, pow_add 2 k 54]
  linear_combination (2 ^ k * (2 ^ 54 - 1)) * hunit

lemma halfway_last : halfway (infinityCode - 1) = 2 ^ 1024 - 2 ^ 970 := by
  have hcode : infinityCode - 1 = (970 + 1 + 1074) * 2 ^ 52 + (2 ^ 53 - 1) := by decide
  rw [hcode, halfway_binade two_pow_mul_unit]

/-! ### The code of a value -/

section

variable {code other : ℕ} {q : ℚ} (hcode : ∀ k, k < code ↔ k < infinityCode ∧ Beyond k q)
include hcode

lemma code_eq_zero_iff : code = 0 ↔ q ≤ 2 ^ (-1075 : ℤ) := by
  have hpos : 0 < code ↔ halfway 0 < q := by
    rw [hcode, and_iff_right (by decide)]
    simp [Beyond]
  rw [← halfway_zero, ← not_lt, ← hpos, Nat.not_lt, Nat.le_zero]

lemma code_eq_infinityCode_iff : code = infinityCode ↔ 2 ^ 1024 - 2 ^ 970 ≤ q := by
  have hodd : Odd (infinityCode - 1) := Nat.odd_iff.mpr (by decide)
  have hlast : infinityCode - 1 < code ↔ halfway (infinityCode - 1) ≤ q := by
    rw [hcode, and_iff_right (by decide), Beyond, and_iff_left hodd, le_iff_lt_or_eq]
  have hle : ¬ infinityCode < code := fun h => Nat.lt_irrefl _ ((hcode infinityCode).mp h).1
  have hpos : 0 < infinityCode := by decide
  rw [← halfway_last, ← hlast]
  omega

/-- No code below is nearer, nor one as near unless the code is even. -/
lemma distance_le_of_lt (h : other < code) :
    |q - magnitude code * unit| ≤ |q - magnitude other * unit| ∧
      (|q - magnitude code * unit| = |q - magnitude other * unit| → Even code) := by
  obtain ⟨k, rfl⟩ := Nat.exists_eq_succ_of_ne_zero (Nat.ne_zero_of_lt h)
  have hbeyond := ((hcode k).mp k.lt_succ_self).2
  have hlt : (magnitude other : ℚ) * unit < magnitude (k + 1) * unit :=
    magnitude_mul_unit_strictMono h
  have hle : (magnitude other : ℚ) * unit ≤ magnitude k * unit :=
    magnitude_mul_unit_strictMono.monotone (Nat.le_of_lt_succ h)
  have hsum := two_mul_halfway k
  obtain ⟨hdistance, htie⟩ := abs_sub_le_abs_sub (q := q) hlt.ne
    (mul_nonneg (by linarith) (by linarith [hbeyond.le]))
  refine ⟨hdistance, fun heq => ?_⟩
  have hq := htie heq
  rcases hbeyond with hless | ⟨-, hodd⟩
  · linarith
  · exact hodd.add_one

/-- No code above is nearer, nor one as near unless the code is even. -/
lemma distance_le_of_gt (hfinite : code < infinityCode) (h : code < other) :
    |q - magnitude code * unit| ≤ |q - magnitude other * unit| ∧
      (|q - magnitude code * unit| = |q - magnitude other * unit| → Even code) := by
  have hbeyond : ¬ Beyond code q := fun hbeyond =>
    Nat.lt_irrefl code ((hcode code).mpr ⟨hfinite, hbeyond⟩)
  have hle' : q ≤ halfway code := not_lt.mp fun hlt => hbeyond (.inl hlt)
  have hlt : (magnitude code : ℚ) * unit < magnitude other * unit :=
    magnitude_mul_unit_strictMono h
  have hle : (magnitude (code + 1) : ℚ) * unit ≤ magnitude other * unit :=
    magnitude_mul_unit_strictMono.monotone h
  have hsum := two_mul_halfway code
  obtain ⟨hdistance, htie⟩ := abs_sub_le_abs_sub (q := q) hlt.ne'
    (mul_nonneg_of_nonpos_of_nonpos (by linarith) (by linarith))
  refine ⟨hdistance, fun heq => ?_⟩
  have hq := htie heq
  rw [← Nat.not_odd_iff_even]
  exact fun hodd => hbeyond (.inr ⟨by linarith, hodd⟩)

/-- No finite number is nearer than that with the code of a value, nor is another one as near unless
the code is even. -/
lemma distance_le (hfinite : code < infinityCode) (hq : 0 ≤ q) (y : Binary64) :
    |q - magnitude code * unit| ≤ |q - y.value| ∧
      (|q - magnitude code * unit| = |q - y.value| → y.value ≠ magnitude code * unit →
        Even code) := by
  have hmagnitude (other : ℕ) : |q - magnitude code * unit| ≤ |q - magnitude other * unit| ∧
      (|q - magnitude code * unit| = |q - magnitude other * unit| →
        (magnitude other : ℚ) * unit ≠ magnitude code * unit → Even code) := by
    rcases Nat.lt_trichotomy other code with h | rfl | h
    · exact ⟨(distance_le_of_lt hcode h).1, fun htie _ => (distance_le_of_lt hcode h).2 htie⟩
    · exact ⟨le_rfl, fun _ hne => absurd rfl hne⟩
    · exact ⟨(distance_le_of_gt hcode hfinite h).1,
        fun htie _ => (distance_le_of_gt hcode hfinite h).2 htie⟩
  by_cases hnegative : y.negative
  · -- a negative number is no nearer than zero, and less near if it is not zero itself
    have hvalue : y.value = -(magnitude y.code * unit) := by rw [value_eq, if_pos hnegative]
    have hnonneg : 0 ≤ (magnitude y.code : ℚ) * unit :=
      mul_nonneg (Nat.cast_nonneg _) unit_pos.le
    have hdistance : |q - y.value| = q + magnitude y.code * unit := by
      rw [hvalue, sub_neg_eq_add]
      exact abs_of_nonneg (by linarith)
    obtain ⟨hle, htie⟩ := hmagnitude 0
    rw [magnitude_zero, Nat.cast_zero, zero_mul, sub_zero, abs_of_nonneg hq] at hle htie
    rw [hdistance, hvalue]
    refine ⟨by linarith, fun heq hne => htie (by linarith) ?_⟩
    have hzero : (magnitude y.code : ℚ) * unit = 0 := by linarith
    rwa [hzero, neg_zero] at hne
  · rw [value_eq, if_neg hnegative]
    exact hmagnitude y.code

end

end Binary64

lemma Decimal.value_nonneg (d : Decimal) : 0 ≤ d.value :=
  div_nonneg (Nat.cast_nonneg _) (Nat.cast_nonneg _)

/-- What is rounded to binary64 is rounded correctly. -/
theorem Binary64.rounds_ofDecimal (d : Decimal) : (ofDecimal d).Rounds d.value := by
  have hcode := lt_code_ofDecimal_iff d
  have hvalue : (ofDecimal d).value = magnitude (ofDecimal d).code * unit := value_eq _
  refine ⟨rfl, ?_, code_eq_infinityCode_iff hcode, code_eq_zero_iff hcode, fun hfinite y _ => ?_,
    fun hfinite y _ htie hne => even_significand ?_⟩
  · exact decide_eq_false fun h => Nat.lt_irrefl _ ((hcode infinityCode).mp h).1
  · rw [hvalue]
    exact (distance_le hcode (of_decide_eq_true hfinite) d.value_nonneg y).1
  · rw [hvalue] at htie hne
    exact (distance_le hcode (of_decide_eq_true hfinite) d.value_nonneg y).2 htie hne

/-- A number in a source is the value that its lexeme denotes, rounded. -/
theorem scan_number_rounds {mode : Mode} {source : Text} {tokens : Tokens} {t : Token}
    {x : Binary64} (h : scan mode source = .ok tokens) (ht : t ∈ tokens.body)
    (hx : t.content = .number x) :
    ∃ whole fraction, Numeral whole fraction t.lexeme ∧
      x.Rounds (Numeral.wholeValue whole + Numeral.fractionValue fraction) := by
  have hlexeme := lexeme_of_scan h ht
  rw [hx] at hlexeme
  obtain ⟨whole, fraction, hnumeral, rfl⟩ := lexeme_number_iff.mp hlexeme
  refine ⟨whole, fraction, hnumeral, ?_⟩
  rw [← Numeral.value_ofDigits]
  exact Binary64.rounds_ofDecimal _

/-- Half way between `2 ^ 53` and the next number, the even one of them is taken. -/
theorem scan_number_rounds_halfway :
    scan .strict "9007199254740993".toList = .ok ⟨[⟨.number (.ofBits 0x4340000000000000),
      "9007199254740993".toList, ⟨1, 1⟩⟩], ⟨.eof, [], ⟨1, 17⟩⟩⟩ ∧
    (Binary64.ofBits 0x4340000000000000).Rounds 9007199254740993 := by
  have hscan : scan .strict "9007199254740993".toList
      = .ok ⟨[⟨.number (.ofBits 0x4340000000000000), "9007199254740993".toList, ⟨1, 1⟩⟩],
        ⟨.eof, [], ⟨1, 17⟩⟩⟩ := by
    decide +kernel
  have hvalue : Numeral.wholeValue "9007199254740993".toList = 9007199254740993 := by
    have hread : Decimal.readOn 0 "9007199254740993".toList = 9007199254740993 := by
      decide +kernel
    have h := Numeral.readOn_eq 0 "9007199254740993".toList
    rw [hread, Nat.zero_mul, Nat.zero_add] at h
    exact h.symm
  refine ⟨hscan, ?_⟩
  obtain ⟨whole, fraction, hnumeral, hrounds⟩ :=
    scan_number_rounds hscan (List.mem_singleton_self _) rfl
  generalize htext : "9007199254740993".toList = text at hnumeral hvalue
  cases hnumeral with
  | integer =>
    rwa [hvalue, Numeral.fractionValue, add_zero, Nat.cast_ofNat] at hrounds
  | fraction =>
    have hpoint : '.' ∈ "9007199254740993".toList := by simp [htext]
    exact absurd hpoint (by decide)

end LoxReader
