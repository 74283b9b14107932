import LoxReader.Proofs.Number.Numeral
import Mathlib.Data.List.DropRight

/-!
# Significant digits

How many digits of a text count, and how many a number needs: zeros at both ends only say where the
point stands. The text of a decimal has no digits besides those that its number needs.
-/

namespace LoxReader

/-- The digits of a text, from the first to the last one that is not zero. -/
def significantDigits (text : Text) : Text :=
  ((text.filter Char.isDigit).dropWhile (· = '0')).rdropWhile (· = '0')

/-- A number is written with up to `count` digits and further zeros. -/
def Fits (count n : ℕ) : Prop := ∃ m j, m < 10 ^ count ∧ n = m * 10 ^ j

/-! ### How many digits a number needs -/

lemma fits_zero (count : ℕ) : Fits count 0 :=
  ⟨0, 0, Nat.pow_pos (by decide), (Nat.zero_mul _).symm⟩

lemma Fits.of_lt {count n : ℕ} (h : n < 10 ^ count) : Fits count n :=
  ⟨n, 0, h, (Nat.mul_one n).symm⟩

lemma Fits.mul_pow {count n : ℕ} (h : Fits count n) (k : ℕ) : Fits count (n * 10 ^ k) := by
  obtain ⟨m, j, hm, rfl⟩ := h
  exact ⟨m, j + k, hm, by rw [pow_add, Nat.mul_assoc]⟩

lemma Fits.mono {count count' n : ℕ} (h : Fits count n) (hle : count ≤ count') : Fits count' n := by
  obtain ⟨m, j, hm, rfl⟩ := h
  exact ⟨m, j, hm.trans_le (Nat.pow_le_pow_right (by decide) hle), rfl⟩

lemma Fits.of_le {count n : ℕ} (hcount : 0 < count) (h : n ≤ 10 ^ count) : Fits count n := by
  rcases Nat.lt_or_eq_of_le h with hlt | rfl
  · exact .of_lt hlt
  · exact ⟨1, count, Nat.one_lt_pow (Nat.ne_of_gt hcount) (by decide), (Nat.one_mul _).symm⟩

lemma fits_mul_pow_iff {count n k : ℕ} : Fits count (n * 10 ^ k) ↔ Fits count n := by
  refine ⟨fun ⟨m, j, hm, hn⟩ => ?_, fun h => h.mul_pow k⟩
  rcases Nat.le_total j k with hle | hle
  · obtain ⟨i, rfl⟩ := Nat.exists_eq_add_of_le hle
    rw [Nat.add_comm, pow_add, ← Nat.mul_assoc] at hn
    have hm' := Nat.eq_of_mul_eq_mul_right (Nat.pow_pos (by decide)) hn
    exact .of_lt ((Nat.le_mul_of_pos_right n (Nat.pow_pos (by decide))).trans_lt (hm' ▸ hm))
  · obtain ⟨i, rfl⟩ := Nat.exists_eq_add_of_le hle
    rw [Nat.add_comm, pow_add, ← Nat.mul_assoc] at hn
    exact ⟨m, i, hm, Nat.eq_of_mul_eq_mul_right (Nat.pow_pos (by decide)) hn⟩

/-- A positive number has one more digit than the largest power of ten up to it has zeros. -/
lemma exists_length_toDigits {n : ℕ} (hpos : 0 < n) : ∃ zeros,
    (Nat.toDigits 10 n).length = zeros + 1 ∧ 10 ^ zeros ≤ n ∧ n < 10 ^ (zeros + 1) := by
  obtain ⟨zeros, hlength⟩ : ∃ zeros, (Nat.toDigits 10 n).length = zeros + 1 :=
    Nat.exists_eq_succ_of_ne_zero (List.length_pos_iff.mpr Nat.toDigits_ne_nil).ne'
  refine ⟨zeros, hlength, ?_,
    (Nat.length_toDigits_le_iff (by decide) (Nat.succ_pos _)).mp hlength.le⟩
  rcases Nat.eq_zero_or_pos zeros with rfl | hzeros
  · exact hpos
  · by_contra hsmall
    have := (Nat.length_toDigits_le_iff (by decide) hzeros).mpr (Nat.lt_of_not_le hsmall)
    omega

namespace Numeral

/-! ### Digits and their values -/

lemma digit_le {c : Char} (h : c.isDigit) : digit c ≤ 9 := by
  have h9 := (Char.isDigit_iff_toNat.mp h).2
  have h0 : '0'.toNat = 48 := rfl
  have h9' : '9'.toNat = 57 := rfl
  rw [digit]
  omega

lemma digit_eq_zero_iff {c : Char} (h : c.isDigit) : digit c = 0 ↔ c = '0' := by
  have h0 := (Char.isDigit_iff_toNat.mp h).1
  rw [digit, Nat.sub_eq_zero_iff_le, ← Char.toNat_inj]
  omega

lemma wholeValue_lt {digits : Text} (h : ∀ c ∈ digits, c.isDigit) :
    wholeValue digits < 10 ^ digits.length := by
  induction digits with
  | nil => exact Nat.one_pos
  | cons c digits ih =>
    rw [List.forall_mem_cons] at h
    have hdigit := Nat.mul_le_mul_right (10 ^ digits.length) (digit_le h.1)
    have hothers := ih h.2
    rw [wholeValue, List.length_cons, pow_succ]
    omega

lemma le_wholeValue {c : Char} {digits : Text} (hc : c.isDigit) (hne : c ≠ '0') :
    10 ^ digits.length ≤ wholeValue (c :: digits) := by
  have hdigit : 0 < digit c := Nat.pos_of_ne_zero fun h => hne ((digit_eq_zero_iff hc).mp h)
  exact (Nat.le_mul_of_pos_left _ hdigit).trans (Nat.le_add_right _ _)

lemma wholeValue_concat (digits : Text) (c : Char) :
    wholeValue (digits ++ [c]) = wholeValue digits * 10 + digit c := by
  rw [wholeValue_append, wholeValue, wholeValue, List.length_nil, List.length_singleton]
  ring

/-- Zeros in front of digits do not count. -/
lemma wholeValue_dropWhile (digits : Text) :
    wholeValue (digits.dropWhile (· = '0')) = wholeValue digits := by
  induction digits with
  | nil => rfl
  | cons c digits ih =>
    rw [List.dropWhile_cons]
    split
    · next hc =>
      have hdigit : digit c = 0 := by rw [of_decide_eq_true hc]; rfl
      rw [ih, wholeValue, hdigit, Nat.zero_mul, Nat.zero_add]
    · rfl

/-- Zeros behind digits multiply by powers of ten. -/
lemma wholeValue_rdropWhile (digits : Text) :
    wholeValue digits = wholeValue (digits.rdropWhile (· = '0'))
      * 10 ^ (digits.length - (digits.rdropWhile (· = '0')).length) := by
  induction digits using List.reverseRecOn with
  | nil => rfl
  | append_singleton digits c ih =>
    rw [List.rdropWhile_concat]
    split
    · next hc =>
      have hdigit : digit c = 0 := by rw [of_decide_eq_true hc]; rfl
      have hlength := (List.rdropWhile_prefix (· = '0') digits).length_le
      rw [wholeValue_concat, hdigit, List.length_append, List.length_singleton,
        Nat.sub_add_comm hlength, pow_succ, ← Nat.mul_assoc, ← ih, Nat.add_zero]
    · rw [Nat.sub_self, pow_zero, Nat.mul_one]

/-- A text of digits without zeros at its ends is no longer than its number needs. -/
lemma length_le_of_fits {digits : Text} {count : ℕ} (h : ∀ c ∈ digits, c.isDigit)
    (hfirst : ∀ hne : digits ≠ [], digits.head hne ≠ '0')
    (hlast : ∀ hne : digits ≠ [], digits.getLast hne ≠ '0')
    (hfits : Fits count (wholeValue digits)) : digits.length ≤ count := by
  rcases List.eq_nil_or_concat' digits with rfl | ⟨front, last, rfl⟩
  · exact Nat.zero_le _
  have hne : front ++ [last] ≠ [] := by simp
  obtain ⟨m, j, hm, hvalue⟩ := hfits
  have hj : j = 0 := by
    by_contra hj
    obtain ⟨i, rfl⟩ := Nat.exists_eq_succ_of_ne_zero hj
    have hzero : digit last ≠ 0 := fun hdigit =>
      hlast hne (by simpa using (digit_eq_zero_iff (h last (by simp))).mp hdigit)
    have hle := digit_le (h last (by simp))
    rw [wholeValue_concat, pow_succ, ← Nat.mul_assoc] at hvalue
    omega
  rw [hj, pow_zero, Nat.mul_one] at hvalue
  obtain ⟨c, others, hcons⟩ := List.exists_cons_of_ne_nil hne
  simp only [hcons] at h hfirst hvalue ⊢
  have hle : 10 ^ others.length ≤ wholeValue (c :: others) :=
    le_wholeValue (h c List.mem_cons_self) (hfirst (List.cons_ne_nil _ _))
  exact (Nat.pow_lt_pow_iff_right (by decide)).mp (hle.trans_lt (hvalue ▸ hm))

end Numeral

/-- A text has as many significant digits as the number of its digits needs. -/
lemma length_significantDigits_le_iff {text : Text} {count : ℕ} :
    (significantDigits text).length ≤ count ↔
      Fits count (Numeral.wholeValue (text.filter Char.isDigit)) := by
  have hdigit : ∀ c ∈ significantDigits text, c.isDigit := fun c hc =>
    (List.mem_filter.mp
      ((List.dropWhile_sublist _).subset ((List.rdropWhile_prefix _ _).subset hc))).2
  have hfirst : ∀ hne : significantDigits text ≠ [], (significantDigits text).head hne ≠ '0' := by
    intro hne
    obtain ⟨zeros, hzeros⟩ : significantDigits text <+: _ := List.rdropWhile_prefix _ _
    have hne' : (text.filter Char.isDigit).dropWhile (· = '0') ≠ [] := by
      rw [← hzeros]
      exact List.append_ne_nil_of_left_ne_nil hne zeros
    have hhead := List.head_dropWhile_not (· = '0') hne'
    simp only [← hzeros, List.head_append_of_ne_nil hne] at hhead
    exact of_decide_eq_false hhead
  have hlast : ∀ hne : significantDigits text ≠ [], (significantDigits text).getLast hne ≠ '0' :=
    fun hne heq => List.rdropWhile_last_not (· = '0') _ hne (decide_eq_true heq)
  rw [← Numeral.wholeValue_dropWhile, Numeral.wholeValue_rdropWhile, fits_mul_pow_iff]
  exact ⟨fun h => .of_lt ((Numeral.wholeValue_lt hdigit).trans_le
    (Nat.pow_le_pow_right (by decide) h)), Numeral.length_le_of_fits hdigit hfirst hlast⟩

namespace Numeral

variable {whole fraction text : Text}

lemma filter_isDigit (h : Numeral whole fraction text) :
    text.filter Char.isDigit = whole ++ fraction := by
  cases h with
  | integer _ hwhole => rw [List.append_nil, List.filter_eq_self.mpr hwhole]
  | fraction _ hwhole _ hfraction =>
    rw [List.filter_append, List.filter_cons_of_neg (by decide), List.filter_eq_self.mpr hwhole,
      List.filter_eq_self.mpr hfraction]

lemma length_le_iff (h : Numeral whole fraction text) {count : ℕ} :
    (significantDigits text).length ≤ count ↔ Fits count (Decimal.ofDigits whole fraction).units := by
  rw [length_significantDigits_le_iff, h.filter_isDigit, ofDigits_eq]

end Numeral

/-! ### The text of a decimal -/

lemma Numeral.wholeValue_toDigits (n : ℕ) : wholeValue (Nat.toDigits 10 n) = n := by
  have h := readOn_eq 0 (Nat.toDigits 10 n)
  rw [Nat.zero_mul, Nat.zero_add] at h
  rw [← h, Decimal.readOn, ← Nat.ofDigitChars_eq_foldl, Nat.ofDigitChars_ten_toDigits]

lemma Numeral.wholeValue_leftpad (count : ℕ) (digits : Text) :
    wholeValue (List.leftpad count '0' digits) = wholeValue digits := by
  have hzeros : (List.replicate (count - digits.length) '0').dropWhile (· = '0') = [] :=
    List.dropWhile_eq_nil_iff.mpr fun c hc => decide_eq_true (List.eq_of_mem_replicate hc)
  rw [List.leftpad, wholeValue_append, ← wholeValue_dropWhile (List.replicate _ _), hzeros,
    wholeValue, Nat.zero_mul, Nat.zero_add]

namespace Decimal

/-- The digits behind the point, all of them. -/
lemma fractionDigits_eq (d : Decimal) : d.fractionDigits = (List.leftpad d.places '0'
    (Nat.toDigits 10 (d.units % 10 ^ d.places))).rdropWhile (· = '0') := rfl

lemma isDigit_of_mem_fractionDigits {d : Decimal} {c : Char} (h : c ∈ d.fractionDigits) :
    c.isDigit := by
  rw [fractionDigits_eq] at h
  rcases List.mem_append.mp ((List.rdropWhile_prefix _ _).subset h) with hzero | hdigit
  · rw [List.eq_of_mem_replicate hzero]
    rfl
  · exact Nat.isDigit_of_mem_toDigits (by decide) (by decide) hdigit

lemma numeral_text (d : Decimal) :
    Numeral (Nat.toDigits 10 (d.units / 10 ^ d.places)) d.fractionDigits d.text := by
  have hwhole : ∀ c ∈ Nat.toDigits 10 (d.units / 10 ^ d.places), c.isDigit := fun c hc =>
    Nat.isDigit_of_mem_toDigits (by decide) (by decide) hc
  have hfraction : ∀ c ∈ d.fractionDigits, c.isDigit := fun c hc =>
    isDigit_of_mem_fractionDigits hc
  simp only [text, Text.ofNat, Nat.pow_eq]
  split
  · next hnil =>
    rw [hnil]
    exact .integer Nat.toDigits_ne_nil hwhole
  · next hne => exact .fraction Nat.toDigits_ne_nil hwhole hne hfraction

/-- The digits of the text are those of the units but for closing zeros. -/
lemma exists_units_eq (d : Decimal) : ∃ k, d.places = d.fractionDigits.length + k ∧
    d.units = Numeral.wholeValue (Nat.toDigits 10 (d.units / 10 ^ d.places) ++ d.fractionDigits)
      * 10 ^ k := by
  rcases Nat.eq_zero_or_pos d.places with hzero | hpos
  · have hnil : d.fractionDigits = [] := by
      rw [fractionDigits_eq, hzero, pow_zero, Nat.mod_one, Nat.toDigits_zero]
      rfl
    refine ⟨0, ?_, ?_⟩
    · rw [hnil, hzero, List.length_nil]
    · rw [hnil, hzero, List.append_nil, Numeral.wholeValue_toDigits, pow_zero, Nat.div_one,
        Nat.mul_one]
  · have hlength : (List.leftpad d.places '0'
        (Nat.toDigits 10 (d.units % 10 ^ d.places))).length = d.places := by
      rw [List.length_leftpad, Nat.max_eq_left]
      exact (Nat.length_toDigits_le_iff (by decide) hpos).mpr
        (Nat.mod_lt _ (Nat.pow_pos (by decide)))
    have hle : d.fractionDigits.length ≤ d.places :=
      hlength ▸ (List.rdropWhile_prefix (· = '0') _).length_le
    have hfraction : d.units % 10 ^ d.places
        = Numeral.wholeValue d.fractionDigits * 10 ^ (d.places - d.fractionDigits.length) := by
      conv_rhs => rw [← hlength, fractionDigits_eq]
      rw [← Numeral.wholeValue_rdropWhile, Numeral.wholeValue_leftpad, Numeral.wholeValue_toDigits]
    refine ⟨d.places - d.fractionDigits.length, (Nat.add_sub_of_le hle).symm, ?_⟩
    rw [Numeral.wholeValue_append, Numeral.wholeValue_toDigits, Nat.add_mul, ← hfraction,
      Nat.mul_assoc, ← pow_add, Nat.add_sub_of_le hle, Nat.div_add_mod']

lemma value_mul_pow (units places k : ℕ) :
    (mk (units * 10 ^ k) (places + k)).value = (mk units places).value := by
  have hpow : ((10 ^ k : ℕ) : ℚ) ≠ 0 := Nat.cast_ne_zero.mpr (Nat.pow_pos (by decide)).ne'
  rw [value, value, pow_add, Nat.cast_mul, Nat.cast_mul, mul_div_mul_right _ _ hpow]

/-- What is read from the text of a decimal is the decimal, but for closing zeros. -/
lemma exists_numeral_text (d : Decimal) : ∃ whole fraction k, Numeral whole fraction d.text ∧
    d = ⟨(ofDigits whole fraction).units * 10 ^ k, (ofDigits whole fraction).places + k⟩ := by
  obtain ⟨k, hplaces, hunits⟩ := d.exists_units_eq
  refine ⟨_, _, k, d.numeral_text, ?_⟩
  rw [Numeral.ofDigits_eq, ← hunits, ← hplaces]

end Decimal

end LoxReader
