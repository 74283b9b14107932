import LoxReader.Proofs.Number.Magnitude
import Mathlib.Algebra.Order.Field.Basic
import Mathlib.Algebra.Ring.Parity
import Mathlib.Tactic.FieldSimp

/-!
# The nearest number

Between the magnitudes of a code and of the next one lies a point half way. A quotient belongs to
the codes behind every such point that it exceeds, and at such a point to the even code of the
two. This settles the code of a quotient altogether.
-/

namespace LoxReader

/-! ### Natural numbers -/

section

variable {den : ℕ}

lemma roundHalfEven_eq_or (num den : ℕ) :
    roundHalfEven num den = num / den ∨ roundHalfEven num den = num / den + 1 := by
  simp only [roundHalfEven]
  split
  · exact .inl rfl
  · split
    · exact .inr rfl
    · rcases Nat.mod_two_eq_zero_or_one (num / den) with h | h
      · exact .inl (by rw [h, Nat.add_zero])
      · exact .inr (by rw [h])

/-- What is rounded lies at most half way beyond the result, and half way only if that is even. -/
lemma le_roundHalfEven (num : ℕ) (hden : 0 < den) :
    2 * num ≤ den * (2 * roundHalfEven num den + 1) ∧
      (2 * num = den * (2 * roundHalfEven num den + 1) → Even (roundHalfEven num den)) := by
  have hnum := Nat.div_add_mod num den
  have hmod := Nat.mod_lt num hden
  simp only [roundHalfEven]
  split
  · have h : den * (2 * (num / den) + 1) = 2 * (den * (num / den)) + den := by ring
    exact ⟨by omega, fun _ => by omega⟩
  · split
    · have h : den * (2 * (num / den + 1) + 1) = 2 * (den * (num / den)) + 3 * den := by ring
      exact ⟨by omega, fun _ => by omega⟩
    · have h : den * (2 * (num / den + num / den % 2) + 1)
          = 2 * (den * (num / den)) + den + 2 * (den * (num / den % 2)) := by ring
      exact ⟨by omega, fun _ => by rw [Nat.even_iff]; omega⟩

/-- What is rounded lies at most half way below the result, and half way only if that is even. -/
lemma roundHalfEven_le (num : ℕ) (hden : 0 < den) :
    den * (2 * roundHalfEven num den) ≤ 2 * num + den ∧
      (den * (2 * roundHalfEven num den) = 2 * num + den → Even (roundHalfEven num den)) := by
  have hnum := Nat.div_add_mod num den
  have hmod := Nat.mod_lt num hden
  simp only [roundHalfEven]
  split
  · have h : den * (2 * (num / den)) = 2 * (den * (num / den)) := by ring
    exact ⟨by omega, fun _ => by omega⟩
  · split
    · have h : den * (2 * (num / den + 1)) = 2 * (den * (num / den)) + 2 * den := by ring
      exact ⟨by omega, fun _ => by omega⟩
    · rcases Nat.mod_two_eq_zero_or_one (num / den) with heven | hodd
      · have h : den * (2 * (num / den + num / den % 2)) = 2 * (den * (num / den)) := by
          rw [heven]
          ring
        exact ⟨by omega, fun _ => by rw [Nat.even_iff]; omega⟩
      · have h : den * (2 * (num / den + num / den % 2)) = 2 * (den * (num / den)) + 2 * den := by
          rw [hodd]
          ring
        exact ⟨by omega, fun _ => by rw [Nat.even_iff]; omega⟩

end

namespace Binary64

/-- Twice the number of units half way between a code and the next one. -/
def midpoint (code : ℕ) : ℕ := magnitude code + magnitude (code + 1)

lemma midpoint_strictMono : StrictMono midpoint := fun _ _ h =>
  Nat.add_lt_add (magnitude_strictMono h) (magnitude_strictMono (Nat.succ_lt_succ h))

section

variable {units den e r code : ℕ}

/-- The exponent is the least one that leaves a significand of 53 digits at most. -/
lemma exponent_spec (units den : ℕ) :
    units / (den * 2 ^ ((units / den).log2 - 52)) < 2 ^ 53 ∧
      ((units / den).log2 - 52 = 0 ∨
        2 ^ 52 ≤ units / (den * 2 ^ ((units / den).log2 - 52))) := by
  rw [← Nat.div_div_eq_div_mul]
  rcases Nat.lt_or_ge (units / den) (2 ^ 53) with hsmall | hlarge
  · have hlog : (units / den).log2 - 52 = 0 := by
      rcases Nat.eq_zero_or_pos (units / den) with h | h
      · rw [h, Nat.log2_zero]
      · have := (Nat.log2_lt (Nat.ne_of_gt h)).mpr hsmall
        omega
    rw [hlog, pow_zero, Nat.div_one]
    exact ⟨hsmall, .inl rfl⟩
  · have hne : units / den ≠ 0 := by omega
    have hlog : 53 ≤ (units / den).log2 := (Nat.le_log2 hne).mpr hlarge
    have hsplit : ∀ k, 2 ^ ((units / den).log2 - 52) * 2 ^ (52 + k) = 2 ^ ((units / den).log2 + k) :=
      fun k => by
        rw [← pow_add]
        congr 1
        omega
    constructor
    · rw [Nat.div_lt_iff_lt_mul (Nat.two_pow_pos _), Nat.mul_comm, hsplit 1]
      exact Nat.lt_log2_self
    · rw [Nat.le_div_iff_mul_le (Nat.two_pow_pos _), Nat.mul_comm]
      exact .inr (hsplit 0 ▸ Nat.log2_self_le hne)

lemma le_midpoint (hr : r ≤ 2 ^ 53) (he : e = 0 ∨ 2 ^ 52 ≤ r) :
    2 ^ e * (2 * r + 1) ≤ midpoint (e * 2 ^ 52 + r) := by
  have hexponent : e ≤ (e * 2 ^ 52 + r) / 2 ^ 52 - 1 := by omega
  have hwidth : 2 ^ e ≤ width (e * 2 ^ 52 + r) := Nat.pow_le_pow_right (by decide) hexponent
  rw [midpoint, magnitude_succ, magnitude_eq hr he, Nat.mul_add, Nat.mul_one, Nat.mul_left_comm,
    Nat.mul_comm (2 ^ e)]
  omega

lemma midpoint_eq (hr : r < 2 ^ 53) (he : e = 0 ∨ 2 ^ 52 ≤ r) :
    midpoint (e * 2 ^ 52 + r) = 2 ^ e * (2 * r + 1) := by
  rw [midpoint, magnitude_succ, width_eq hr he, magnitude_eq (Nat.le_of_lt hr) he]
  ring

/-- In front of the least significand of an exponent codes are twice as dense as behind it. -/
lemma midpoint_lt (hcode : (e + 1) * 2 ^ 52 + 2 ^ 52 = code + 1) :
    midpoint code < 2 * (2 ^ 52 * 2 ^ (e + 1)) := by
  obtain ⟨s, hs⟩ : ∃ s, s + 1 = 2 ^ 53 := ⟨2 ^ 53 - 1, rfl⟩
  have hbelow : code = e * 2 ^ 52 + s := by omega
  calc midpoint code = 2 ^ e * (2 * s + 1) := by rw [hbelow, midpoint_eq (by omega) (by omega)]
    _ < 2 ^ e * (2 * (s + 1)) := Nat.mul_lt_mul_of_pos_left (by omega) (Nat.two_pow_pos e)
    _ = 2 * (2 ^ 52 * 2 ^ (e + 1)) := by
      rw [hs, Nat.pow_succ (n := 2) (m := e)]
      ring

/-- A quotient is not beyond the point half way behind the code that it is rounded to. -/
lemma units_le_midpoint (hden : 0 < den) (hr : r ≤ 2 ^ 53) (he : e = 0 ∨ 2 ^ 52 ≤ r)
    (hround : r = roundHalfEven units (den * 2 ^ e)) :
    2 * units ≤ den * midpoint (e * 2 ^ 52 + r) ∧
      (2 * units = den * midpoint (e * 2 ^ 52 + r) → Even (e * 2 ^ 52 + r)) := by
  obtain ⟨hle, heven⟩ := le_roundHalfEven units (Nat.mul_pos hden (Nat.two_pow_pos e))
  have hmidpoint := Nat.mul_le_mul_left den (le_midpoint hr he)
  rw [← hround, Nat.mul_assoc] at hle heven
  refine ⟨hle.trans hmidpoint, fun htie => ?_⟩
  have hr' := heven (Nat.le_antisymm hle (htie ▸ hmidpoint))
  rw [Nat.even_iff] at hr' ⊢
  omega

/-- A quotient is beyond the point half way in front of the code that it is rounded to. -/
lemma midpoint_le_units (hden : 0 < den) (hr : r ≤ 2 ^ 53)
    (he : e = 0 ∨ 2 ^ 52 ≤ units / (den * 2 ^ e)) (hle : units / (den * 2 ^ e) ≤ r)
    (hround : r = roundHalfEven units (den * 2 ^ e)) (hcode : e * 2 ^ 52 + r = code + 1) :
    den * midpoint code ≤ 2 * units ∧
      (den * midpoint code = 2 * units → Even (e * 2 ^ 52 + r)) := by
  have hpos : 0 < den * 2 ^ e := Nat.mul_pos hden (Nat.two_pow_pos e)
  by_cases hlow : e ≠ 0 ∧ r = 2 ^ 52
  · obtain ⟨hne, rfl⟩ := hlow
    obtain ⟨k, rfl⟩ := Nat.exists_eq_succ_of_ne_zero hne
    have hlt : den * midpoint code < 2 * units := calc
      den * midpoint code < den * (2 * (2 ^ 52 * 2 ^ (k + 1))) :=
        Nat.mul_lt_mul_of_pos_left (midpoint_lt hcode) hden
      _ = 2 * (2 ^ 52 * (den * 2 ^ (k + 1))) := by ring
      _ ≤ 2 * units :=
        Nat.mul_le_mul_left 2 ((Nat.le_div_iff_mul_le hpos).mp (he.resolve_left hne))
    exact ⟨Nat.le_of_lt hlt, fun htie => absurd htie (Nat.ne_of_lt hlt)⟩
  · obtain ⟨hle', heven⟩ := roundHalfEven_le units hpos
    obtain ⟨s, rfl⟩ : ∃ s, r = s + 1 := ⟨r - 1, by omega⟩
    have hmidpoint : midpoint code = 2 ^ e * (2 * s + 1) := by
      have hbelow : code = e * 2 ^ 52 + s := by omega
      rw [hbelow, midpoint_eq (by omega) (by omega)]
    have hshift : den * 2 ^ e * (2 * (s + 1)) = den * midpoint code + den * 2 ^ e := by
      rw [hmidpoint]
      ring
    rw [← hround, hshift] at hle' heven
    refine ⟨by omega, fun htie => ?_⟩
    have hs := heven (by omega)
    rw [Nat.even_iff] at hs ⊢
    omega

/-- Codes below a rounded quotient, by the points half way behind them. -/
lemma lt_rounded_iff (hden : 0 < den) (he : (units / den).log2 - 52 = e)
    (hr : roundHalfEven units (den * 2 ^ e) = r) :
    code < e * 2 ^ 52 + r ↔
      den * midpoint code < 2 * units ∨ den * midpoint code = 2 * units ∧ Odd code := by
  obtain ⟨hbound, hexponent⟩ := exponent_spec units den
  rw [he] at hbound hexponent
  have hround := roundHalfEven_eq_or units (den * 2 ^ e)
  rw [hr] at hround
  constructor
  · intro hcode
    obtain ⟨last, hlast⟩ : ∃ last, e * 2 ^ 52 + r = last + 1 := ⟨e * 2 ^ 52 + r - 1, by omega⟩
    obtain ⟨hle, heven⟩ :=
      midpoint_le_units hden (by omega) hexponent (by omega) hr.symm hlast
    rcases Nat.lt_or_eq_of_le (Nat.le_of_lt_succ (hlast ▸ hcode)) with hlt | rfl
    · exact .inl ((Nat.mul_lt_mul_of_pos_left (midpoint_strictMono hlt) hden).trans_le hle)
    · rcases Nat.lt_or_eq_of_le hle with hlt | htie
      · exact .inl hlt
      · have hnext := heven htie
        rw [hlast, Nat.even_add_one, Nat.not_even_iff_odd] at hnext
        exact .inr ⟨htie, hnext⟩
  · intro hbeyond
    by_contra hcode
    rw [Nat.not_lt] at hcode
    obtain ⟨hle, heven⟩ := units_le_midpoint hden (by omega) (by omega) hr.symm
    have hmidpoint := Nat.mul_le_mul_left den (midpoint_strictMono.monotone hcode)
    rcases hbeyond with hlt | ⟨htie, hodd⟩
    · omega
    · rcases Nat.lt_or_eq_of_le hcode with hlt | rfl
      · have := Nat.mul_lt_mul_of_pos_left (midpoint_strictMono hlt) hden
        omega
      · exact Nat.not_even_iff_odd.mpr hodd (heven htie.symm)

/-- A code lies below that of a quotient just if the quotient is beyond the point half way to the
next one, or at that point if the code is odd. -/
lemma lt_nearestCode_iff (hden : 0 < den) (num code : ℕ) :
    code < nearestCode num den ↔ code < infinityCode ∧
      (den * midpoint code < 2 * (num * Nat.pow 2 1074) ∨
        den * midpoint code = 2 * (num * Nat.pow 2 1074) ∧ Odd code) := by
  rw [nearestCode, Nat.lt_min, and_comm]
  exact and_congr_right' (lt_rounded_iff hden rfl rfl)

end

/-! ### Values half way -/

/-- The value half way between a code and the next one. -/
def halfway (code : ℕ) : ℚ := midpoint code * (unit / 2)

/-- A value belongs behind a code: it is beyond the point half way to the next one, or at that
point and the next one is even. -/
def Beyond (code : ℕ) (q : ℚ) : Prop := halfway code < q ∨ halfway code = q ∧ Odd code

lemma halfway_pos (code : ℕ) : 0 < halfway code := by
  have hmidpoint : 0 < midpoint code :=
    Nat.add_pos_right _ (Nat.zero_lt_of_lt (magnitude_strictMono code.lt_succ_self))
  exact mul_pos (Nat.cast_pos.mpr hmidpoint) (half_pos unit_pos)

lemma two_mul_halfway (code : ℕ) :
    2 * halfway code = magnitude code * unit + magnitude (code + 1) * unit := by
  rw [halfway, midpoint, Nat.cast_add]
  ring

lemma Beyond.le {code : ℕ} {q : ℚ} (h : Beyond code q) : halfway code ≤ q := by
  rcases h with hlt | ⟨heq, -⟩
  · exact hlt.le
  · exact heq.le

lemma Beyond.mono {code : ℕ} {p q : ℚ} (h : Beyond code p) (hle : p ≤ q) : Beyond code q := by
  rcases h with hlt | ⟨rfl, hodd⟩
  · exact .inl (hlt.trans_le hle)
  · rcases hle.lt_or_eq with hlt | heq
    · exact .inl hlt
    · exact .inr ⟨heq, hodd⟩

lemma scale_mul_unit : ((Nat.pow 2 1074 : ℕ) : ℚ) * unit = 1 := by
  -- A rewrite by unification would try to evaluate the power.
  simp only [Nat.pow_eq, Nat.cast_pow, Nat.cast_ofNat, two_pow_mul_unit]

lemma beyond_div_iff {num den scale code : ℕ} (hden : 0 < den) (hscale : (scale : ℚ) * unit = 1) :
    Beyond code (num / den) ↔ den * midpoint code < 2 * (num * scale) ∨
      den * midpoint code = 2 * (num * scale) ∧ Odd code := by
  have hden' : (den : ℚ) ≠ 0 := Nat.cast_ne_zero.mpr (Nat.ne_of_gt hden)
  have hstep : 0 < unit / 2 / den := div_pos (half_pos unit_pos) (Nat.cast_pos.mpr hden)
  have hhalfway : halfway code = ((den * midpoint code : ℕ) : ℚ) * (unit / 2 / den) := by
    rw [halfway, Nat.cast_mul]
    field_simp
  have hquotient : (num : ℚ) / den = ((2 * (num * scale) : ℕ) : ℚ) * (unit / 2 / den) := calc
    (num : ℚ) / den = num * (scale * unit) / den := by rw [hscale, mul_one]
    _ = ((2 * (num * scale) : ℕ) : ℚ) * (unit / 2 / den) := by
      push_cast
      field_simp
  rw [Beyond, hhalfway, hquotient, mul_lt_mul_iff_left₀ hstep, Nat.cast_lt,
    mul_left_inj' (ne_of_gt hstep), Nat.cast_inj]

end Binary64

/-- The value of a decimal. -/
def Decimal.value (d : Decimal) : ℚ := d.units / (10 ^ d.places : ℕ)

/-- The code of a decimal depends on its value only, and ascends with it. -/
theorem Binary64.lt_code_ofDecimal_iff (d : Decimal) (code : ℕ) :
    code < (ofDecimal d).code ↔ code < infinityCode ∧ Beyond code d.value := by
  have hplaces : 0 < 10 ^ d.places := Nat.pow_pos (by decide)
  rw [Decimal.value, beyond_div_iff hplaces scale_mul_unit]
  exact lt_nearestCode_iff hplaces d.units code

end LoxReader
