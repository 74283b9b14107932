import LoxReader.Proofs.Lexical.Lexeme
import LoxReader.Proofs.Number.Nearest

/-!
# Numerals

Digits, and maybe a point with digits behind it: how numbers are written down, and which rational
number such a text denotes.
-/

namespace LoxReader

/-- A text of digits, which may go on with a point and further digits. -/
inductive Numeral : Text → Text → Text → Prop where
  | integer {whole : Text} (hne : whole ≠ []) (hwhole : ∀ c ∈ whole, c.isDigit) :
      Numeral whole [] whole
  | fraction {whole fraction : Text} (hne : whole ≠ []) (hwhole : ∀ c ∈ whole, c.isDigit)
      (hne' : fraction ≠ []) (hfraction : ∀ c ∈ fraction, c.isDigit) :
      Numeral whole fraction (whole ++ '.' :: fraction)

namespace Numeral

/-! ### Values -/

def digit (c : Char) : ℕ := c.toNat - '0'.toNat

/-- The number that digits denote by their places: the last one counts for itself, and each of the
others ten times what it would count for one place further on. -/
def wholeValue : Text → ℕ
  | [] => 0
  | c :: digits => digit c * 10 ^ digits.length + wholeValue digits

/-- The number that digits denote behind a point: a tenth of the first one and of what the others
denote behind a point. -/
def fractionValue : Text → ℚ
  | [] => 0
  | c :: digits => (digit c + fractionValue digits) / 10

lemma readOn_eq (value : ℕ) (digits : Text) :
    Decimal.readOn value digits = value * 10 ^ digits.length + wholeValue digits := by
  induction digits generalizing value with
  | nil => simp [Decimal.readOn, wholeValue]
  | cons c digits ih =>
    have hstep : Decimal.readOn value (c :: digits)
        = Decimal.readOn (10 * value + digit c) digits := rfl
    rw [hstep, ih, wholeValue, List.length_cons, pow_succ]
    ring

lemma wholeValue_append (digits others : Text) :
    wholeValue (digits ++ others) = wholeValue digits * 10 ^ others.length + wholeValue others := by
  induction digits with
  | nil => simp [wholeValue]
  | cons c digits ih =>
    rw [List.cons_append, wholeValue, ih, wholeValue, List.length_append, pow_add]
    ring

lemma ofDigits_eq (whole fraction : Text) :
    Decimal.ofDigits whole fraction = ⟨wholeValue (whole ++ fraction), fraction.length⟩ := by
  rw [Decimal.ofDigits, readOn_eq, readOn_eq, wholeValue_append, Nat.zero_mul, Nat.zero_add]

lemma wholeValue_eq (digits : Text) :
    (wholeValue digits : ℚ) = fractionValue digits * 10 ^ digits.length := by
  induction digits with
  | nil => simp [wholeValue, fractionValue]
  | cons c digits ih =>
    rw [wholeValue, Nat.cast_add, ih, fractionValue, List.length_cons, pow_succ]
    push_cast
    ring

/-- The decimal that is read from digits has their value. -/
lemma value_ofDigits (whole fraction : Text) :
    (Decimal.ofDigits whole fraction).value = wholeValue whole + fractionValue fraction := by
  have hpow : (10 : ℚ) ^ fraction.length ≠ 0 := pow_ne_zero _ (by norm_num)
  rw [ofDigits_eq, Decimal.value, wholeValue_append, Nat.cast_add, wholeValue_eq fraction]
  push_cast
  field_simp

end Numeral

/-- The tokens of numbers are the numerals, and they hold what is read from their digits. -/
lemma lexeme_number_iff {x : Binary64} {text : Text} :
    Lexeme (.number x) text ↔ ∃ whole fraction, Numeral whole fraction text ∧
      x = .ofDecimal (.ofDigits whole fraction) := by
  constructor
  · intro h
    cases h with
    | @integer c digits hc hdigits =>
      exact ⟨c :: digits, [], .integer (List.cons_ne_nil _ _) (by simpa using ⟨hc, hdigits⟩), rfl⟩
    | @fraction c d digits fraction hc hdigits hd hfraction =>
      exact ⟨c :: digits, d :: fraction, .fraction (List.cons_ne_nil _ _)
        (by simpa using ⟨hc, hdigits⟩) (List.cons_ne_nil _ _) (by simpa using ⟨hd, hfraction⟩), rfl⟩
  · rintro ⟨whole, fraction, hnumeral, rfl⟩
    cases hnumeral with
    | integer hne hwhole =>
      obtain ⟨c, digits, rfl⟩ := List.exists_cons_of_ne_nil hne
      rw [List.forall_mem_cons] at hwhole
      exact .integer hwhole.1 hwhole.2
    | fraction hne hwhole hne' hfraction =>
      obtain ⟨c, digits, rfl⟩ := List.exists_cons_of_ne_nil hne
      obtain ⟨d, others, rfl⟩ := List.exists_cons_of_ne_nil hne'
      rw [List.forall_mem_cons] at hwhole hfraction
      exact .fraction hwhole.1 hwhole.2 hfraction.1 hfraction.2

end LoxReader
