import LoxReader.Number.Shortest
import LoxReader.Proofs.Lexical.Longest
import LoxReader.Proofs.Number.Digits
import Mathlib.Tactic.LinearCombination

/-!
# Shortest texts of numbers

The decimals that read back as a number lie around its exact value without a gap. So if a grid has
such a point at all, one of its two points next to the exact value is one, and the coarsest grid
with such a point gives the fewest digits.
-/

namespace LoxReader

namespace Binary64

/-! ### What reads back -/

lemma code_ofDecimal_mono {d e : Decimal} (h : d.value ≤ e.value) :
    (ofDecimal d).code ≤ (ofDecimal e).code :=
  le_of_forall_lt fun code hcode => by
    rw [lt_code_ofDecimal_iff] at hcode ⊢
    exact ⟨hcode.1, hcode.2.mono h⟩

lemma beyond_magnitude_iff {code other : ℕ} :
    Beyond code (magnitude other * unit) ↔ code < other := by
  have hsum := two_mul_halfway code
  have hwidth : (magnitude code : ℚ) * unit < magnitude (code + 1) * unit :=
    magnitude_mul_unit_strictMono code.lt_succ_self
  constructor
  · intro hbeyond
    by_contra hle
    have hother : (magnitude other : ℚ) * unit ≤ magnitude code * unit :=
      magnitude_mul_unit_strictMono.monotone (Nat.not_lt.mp hle)
    linarith [hbeyond.le]
  · intro hlt
    have hother : (magnitude (code + 1) : ℚ) * unit ≤ magnitude other * unit :=
      magnitude_mul_unit_strictMono.monotone (Nat.succ_le_of_lt hlt)
    exact .inl (by linarith)

/-- Powers of two are written without a denominator, or with one that is a power of ten. -/
lemma decimal_of_dyadic {scale : ℕ} {u : ℚ} (hu : 2 ^ scale * u = 1) (s e : ℕ) :
    (Decimal.mk (s * 2 ^ (e - scale) * 5 ^ (scale - e)) (scale - e)).value
      = ((s * 2 ^ e : ℕ) : ℚ) * u := by
  have hten : (10 : ℚ) ^ (scale - e) = 2 ^ (scale - e) * 5 ^ (scale - e) := by
    rw [← mul_pow]
    norm_num
  have hexponents : e + (scale - e) = (e - scale) + scale := by omega
  rw [Decimal.value, div_eq_iff (by positivity)]
  push_cast
  calc (s : ℚ) * 2 ^ (e - scale) * 5 ^ (scale - e)
      = s * (2 ^ (e - scale) * 2 ^ scale) * 5 ^ (scale - e) * u := by
        linear_combination (-(s : ℚ) * 2 ^ (e - scale) * 5 ^ (scale - e)) * hu
    _ = s * 2 ^ e * u * 10 ^ (scale - e) := by
        rw [← pow_add, ← hexponents, pow_add, hten]
        ring

variable {x : Binary64}

lemma value_expansion (x : Binary64) : x.expansion.value = magnitude x.code * unit := by
  rw [magnitude_code]
  exact decimal_of_dyadic two_pow_mul_unit x.significand x.exponent

lemma value_le_value_iff {d e : Decimal} :
    d.value ≤ e.value ↔ d.units * 10 ^ e.places ≤ e.units * 10 ^ d.places := by
  have hpos (n : ℕ) : (0 : ℚ) < ((10 ^ n : ℕ) : ℚ) := Nat.cast_pos.mpr (Nat.pow_pos (by decide))
  rw [Decimal.value, Decimal.value, div_le_div_iff₀ (hpos _) (hpos _), ← Nat.cast_mul,
    ← Nat.cast_mul, Nat.cast_le]

lemma value_le {m n places : ℕ} (h : m ≤ n) :
    (Decimal.mk m places).value ≤ (Decimal.mk n places).value :=
  value_le_value_iff.mpr (Nat.mul_le_mul_right _ h)

lemma readsBack_iff {d : Decimal} : x.readsBack d ↔ (ofDecimal d).code = x.code :=
  decide_eq_true_iff

lemma readsBack_expansion (h : x.isFinite) : x.readsBack x.expansion := by
  rw [readsBack_iff]
  refine eq_of_forall_lt_iff fun code => ?_
  rw [lt_code_ofDecimal_iff, value_expansion, beyond_magnitude_iff]
  exact and_iff_right_of_imp fun hlt => hlt.trans (of_decide_eq_true h)

/-- What lies between two decimals that read back reads back. -/
lemma readsBack_of_between {a b c : Decimal} (ha : x.readsBack a) (hc : x.readsBack c)
    (hab : a.value ≤ b.value) (hbc : b.value ≤ c.value) : x.readsBack b := by
  rw [readsBack_iff] at ha hc ⊢
  exact le_antisymm (hc ▸ code_ofDecimal_mono hbc) (ha ▸ code_ofDecimal_mono hab)

/-! ### Grids -/

/-- The definition as an equation between functions. At given arguments it could only be checked by
evaluating whether decimals read back. -/
lemma neighbour?_eq : neighbour? = fun x dropped =>
    let exact := x.expansion
    let below := exact.floorTo dropped
    let above := exact.aboveTo dropped
    match x.readsBack below, x.readsBack above with
    | true, true =>
      if 2 * exact.units < below.units + above.units then some below else some above
    | true, false => some below
    | false, true => some above
    | false, false => none := by
  delta neighbour?
  rfl

/-- Neither neighbour on a grid reads back, or one that does is found. -/
lemma neighbour?_cases (x : Binary64) (dropped : ℕ) :
    (x.neighbour? dropped = none ∧ ¬ x.readsBack (x.expansion.floorTo dropped) ∧
      ¬ x.readsBack (x.expansion.aboveTo dropped)) ∨
    ∃ d, x.neighbour? dropped = some d ∧ x.readsBack d ∧
      (d = x.expansion.floorTo dropped ∨ d = x.expansion.aboveTo dropped) := by
  rw [neighbour?_eq]
  dsimp only
  generalize x.expansion = exact
  generalize exact.floorTo dropped = below
  generalize exact.aboveTo dropped = above
  cases hbelow : x.readsBack below <;> cases habove : x.readsBack above
  · exact .inl ⟨rfl, by decide, by decide⟩
  · exact .inr ⟨above, rfl, habove, .inr rfl⟩
  · exact .inr ⟨below, rfl, hbelow, .inl rfl⟩
  · dsimp only
    split
    · exact .inr ⟨below, rfl, hbelow, .inl rfl⟩
    · exact .inr ⟨above, rfl, habove, .inr rfl⟩

/-- If no neighbour of the exact value on a grid reads back, no point of the grid does. -/
lemma not_readsBack_of_neighbour?_eq_none {dropped : ℕ} (hfinite : x.isFinite)
    (h : x.neighbour? dropped = none) (m : ℕ) :
    ¬ x.readsBack ⟨m * 10 ^ dropped, x.expansion.places⟩ := by
  intro hm
  have ⟨hbelow, habove⟩ : ¬ x.readsBack (x.expansion.floorTo dropped) ∧
      ¬ x.readsBack (x.expansion.aboveTo dropped) := by
    obtain ⟨-, hneither⟩ | ⟨d, hd, -⟩ := x.neighbour?_cases dropped
    · exact hneither
    · rw [h] at hd
      cases hd
  have hexact := readsBack_expansion hfinite
  rcases Nat.lt_or_ge (x.expansion.units / 10 ^ dropped) m with hlt | hge
  · refine habove (readsBack_of_between hexact hm (value_le ?_) (value_le ?_))
    · exact (Nat.lt_mul_of_div_lt (Nat.lt_succ_self _) (Nat.pow_pos (by decide))).le
    · exact Nat.mul_le_mul_right _ hlt
  · refine hbelow (readsBack_of_between hm hexact (value_le ?_) (value_le ?_))
    · exact Nat.mul_le_mul_right _ hge
    · exact Nat.div_mul_le_self _ _

/-- The search ends on the coarsest grid, of those it starts with, that has a point that reads
back. -/
lemma shortestFrom_spec (hfinite : x.isFinite) (start : ℕ) :
    x.readsBack (x.shortestFrom start) ∧ ∃ dropped ≤ start, ∃ m,
      x.shortestFrom start = ⟨m * 10 ^ dropped, x.expansion.places⟩ ∧
      m ≤ x.expansion.units / 10 ^ dropped + 1 ∧
      ∀ k, dropped < k → k ≤ start → x.neighbour? k = none := by
  induction start with
  | zero =>
    refine ⟨readsBack_expansion hfinite, 0, le_rfl, x.expansion.units, ?_, ?_, by omega⟩
    · rw [pow_zero, Nat.mul_one]
      rfl
    · rw [pow_zero, Nat.div_one]
      exact Nat.le_succ _
  | succ start ih =>
    rw [shortestFrom]
    obtain ⟨h, -⟩ | ⟨d, h, hreads, hd⟩ := x.neighbour?_cases (start + 1) <;> rw [h]
    · obtain ⟨hreads, dropped, hle, m, hm, hbound, hcoarser⟩ := ih
      refine ⟨hreads, dropped, hle.trans (Nat.le_succ _), m, hm, hbound, fun k hlt hk => ?_⟩
      rcases Nat.lt_or_eq_of_le hk with hk | rfl
      · exact hcoarser k hlt (Nat.le_of_lt_succ hk)
      · exact h
    · refine ⟨hreads, start + 1, le_rfl, ?_⟩
      rcases hd with rfl | rfl
      · exact ⟨_, rfl, Nat.le_succ _, by omega⟩
      · exact ⟨_, rfl, le_rfl, by omega⟩

/-! ### The fewest digits -/

lemma units_pos_of_readsBack {d : Decimal} (hexact : 0 < x.expansion.units) (h : x.readsBack d) :
    0 < d.units := by
  have hcode : 0 < x.code := by
    rw [Nat.pos_iff_ne_zero]
    intro hzero
    have hvalue := value_expansion x
    rw [hzero, magnitude_zero, Nat.cast_zero, zero_mul, Decimal.value, div_eq_zero_iff] at hvalue
    rcases hvalue with hunits | hplaces
    · exact Nat.ne_of_gt hexact (Nat.cast_eq_zero.mp hunits)
    · exact Nat.ne_of_gt (Nat.pow_pos (by decide)) (Nat.cast_eq_zero.mp hplaces)
  rw [← readsBack_iff.mp h, lt_code_ofDecimal_iff] at hcode
  rw [Nat.pos_iff_ne_zero]
  intro hzero
  have hvalue := hcode.2.le
  rw [Decimal.value, hzero, Nat.cast_zero, zero_div] at hvalue
  exact absurd hvalue (not_le.mpr (halfway_pos 0))

/-- A decimal with few digits that reads back gives a point that reads back on the grid with as
many digits of another one: it lies on that grid, or the power of ten that the other one starts with
lies between. -/
lemma exists_readsBack_of_fits {d e : Decimal} {count zeros : ℕ} (hd : x.readsBack d)
    (he : x.readsBack e) (hfits : Fits count d.units) (hcount : 0 < count)
    (hle : count ≤ zeros + 1) (hzeros : 10 ^ zeros ≤ e.units) :
    ∃ m, x.readsBack ⟨m * 10 ^ (zeros + 1 - count), e.places⟩ := by
  obtain ⟨m, j, hm, hunits⟩ := hfits
  rcases le_or_gt (d.places + (zeros + 1 - count)) (j + e.places) with hcoarse | hfine
  · obtain ⟨i, hi⟩ := Nat.exists_eq_add_of_le hcoarse
    have hequal : d.units * 10 ^ e.places
        = m * 10 ^ i * 10 ^ (zeros + 1 - count) * 10 ^ d.places := by
      rw [hunits, Nat.mul_assoc, ← pow_add, hi]
      ring
    exact ⟨m * 10 ^ i, readsBack_of_between hd hd (value_le_value_iff.mpr hequal.le)
      (value_le_value_iff.mpr hequal.ge)⟩
  · refine ⟨10 ^ (count - 1), ?_⟩
    have hexponent : count - 1 + (zeros + 1 - count) = zeros := by omega
    have hpower : 10 ^ (count - 1) * 10 ^ (zeros + 1 - count) = 10 ^ zeros := by
      rw [← pow_add, hexponent]
    rw [hpower]
    refine readsBack_of_between hd he (value_le_value_iff.mpr ?_) (value_le hzeros)
    calc d.units * 10 ^ e.places
        ≤ 10 ^ count * 10 ^ j * 10 ^ e.places := by
          rw [hunits]
          exact Nat.mul_le_mul_right _ (Nat.mul_le_mul_right _ hm.le)
      _ = 10 ^ (count + j + e.places) := by rw [← pow_add, ← pow_add]
      _ ≤ 10 ^ (zeros + d.places) := Nat.pow_le_pow_right (by decide) (by omega)
      _ = 10 ^ zeros * 10 ^ d.places := pow_add _ _ _

/-- No decimal that reads back as a number needs fewer digits than the shortest one. -/
lemma fits_shortest {d : Decimal} {count : ℕ} (hfinite : x.isFinite) (hd : x.readsBack d)
    (hfits : Fits count d.units) : Fits count x.shortest.units := by
  rcases Nat.eq_zero_or_pos x.expansion.units with hzero | hpos
  · have hshortest : x.shortest = x.expansion := by
      rw [shortest, hzero, Nat.toDigits_zero]
      rfl
    rw [hshortest, hzero]
    exact fits_zero count
  obtain ⟨zeros, hlength, hzeros, hlt⟩ := exists_length_toDigits hpos
  obtain ⟨-, dropped, hdropped, m, hshortest, hm, hcoarser⟩ := shortestFrom_spec hfinite zeros
  rw [shortest, hlength, Nat.add_sub_cancel, hshortest, fits_mul_pow_iff]
  have hdigits : Fits (zeros + 1 - dropped) m := by
    refine .of_le (by omega) (hm.trans (Nat.div_lt_of_lt_mul ?_))
    rwa [← pow_add, Nat.add_sub_of_le (by omega)]
  refine hdigits.mono (Nat.le_of_not_lt fun hfewer => ?_)
  have hcount : 0 < count := by
    rw [Nat.pos_iff_ne_zero]
    rintro rfl
    obtain ⟨n, j, hn, hunits⟩ := hfits
    rw [Nat.lt_one_iff.mp hn, Nat.zero_mul] at hunits
    exact absurd hunits (Nat.ne_of_gt (units_pos_of_readsBack hpos hd))
  obtain ⟨n, hn⟩ := exists_readsBack_of_fits hd (readsBack_expansion hfinite) hfits hcount
    (by omega) hzeros
  exact not_readsBack_of_neighbour?_eq_none hfinite (hcoarser _ (by omega) (by omega)) n hn

/-! ### The text of a number -/

lemma eq_of_code {x y : Binary64} (hnegative : x.negative = y.negative) (hcode : x.code = y.code) :
    x = y := by
  cases x
  cases y
  cases hnegative
  cases hcode
  rfl

lemma eq_ofDecimal_iff {d : Decimal} : x = ofDecimal d ↔ x.negative = false ∧ x.readsBack d := by
  refine ⟨?_, fun ⟨hnegative, hreads⟩ => eq_of_code hnegative (of_decide_eq_true hreads).symm⟩
  rintro rfl
  exact ⟨rfl, decide_eq_true rfl⟩

lemma text_eq (hnegative : x.negative = false) (hfinite : x.isFinite) :
    x.text = x.shortest.text := by
  have hnumber : ¬ x.isNaN := fun hnan =>
    Nat.lt_asymm (of_decide_eq_true hnan) (of_decide_eq_true hfinite)
  have hsign : ¬ x.negative := by simp [hnegative]
  rw [text, if_neg hnumber, if_pos hfinite, if_neg hsign]

/-- The text of a finite number stands for that number, with the digits of its shortest decimal. -/
lemma exists_numeral_text (hnegative : x.negative = false) (hfinite : x.isFinite) :
    ∃ whole fraction, Numeral whole fraction x.text ∧ x = ofDecimal (.ofDigits whole fraction) ∧
      ∀ count, Fits count x.shortest.units → Fits count (Decimal.ofDigits whole fraction).units := by
  rw [text_eq hnegative hfinite]
  obtain ⟨whole, fraction, k, htext, hshortest⟩ := x.shortest.exists_numeral_text
  have hreads : x.readsBack x.shortest := (shortestFrom_spec hfinite _).1
  have hvalue : x.shortest.value = (Decimal.ofDigits whole fraction).value := by
    rw [hshortest]
    exact Decimal.value_mul_pow _ _ k
  refine ⟨whole, fraction, htext, eq_ofDecimal_iff.mpr ⟨hnegative, ?_⟩, fun count hfits => ?_⟩
  · exact readsBack_of_between hreads hreads hvalue.le hvalue.ge
  · rw [hshortest] at hfits
    exact fits_mul_pow_iff.mp hfits

end Binary64

/-- The text of a finite number in a source is that number alone again, bit by bit, and no other
text of the number has fewer significant digits. -/
theorem scan_text_number {mode : Mode} {source : Text} {tokens : Tokens} {t : Token} {x : Binary64}
    (h : scan mode source = .ok tokens) (ht : t ∈ tokens.body) (hx : t.content = .number x)
    (hfinite : x.isFinite) :
    ∃ value, t.content.literal? = some value ∧
      scan .strict value.text
        = .ok ⟨[⟨.number x, value.text, .start⟩], ⟨.eof, [], .behind value.text⟩⟩ ∧
      ∀ text u eof, scan .strict text = .ok ⟨[u], eof⟩ → u.lexeme = text → u.content = .number x →
        (significantDigits value.text).length ≤ (significantDigits text).length := by
  have hlexeme := lexeme_of_scan h ht
  rw [hx] at hlexeme ⊢
  obtain ⟨_, _, _, hread⟩ := lexeme_number_iff.mp hlexeme
  have hnegative := (Binary64.eq_ofDecimal_iff.mp hread).1
  obtain ⟨whole, fraction, hnumeral, hvalue, hdigits⟩ :=
    Binary64.exists_numeral_text hnegative hfinite
  refine ⟨.number x, rfl, ?_, fun text u eof hscan htext hu => ?_⟩
  · exact scan_lexeme (lexeme_number_iff.mpr ⟨whole, fraction, hnumeral, hvalue⟩) .strict
  · have hlexeme' := lexeme_of_scan hscan (List.mem_singleton_self u)
    rw [hu, htext] at hlexeme'
    obtain ⟨whole', fraction', hnumeral', hvalue'⟩ := lexeme_number_iff.mp hlexeme'
    exact hnumeral.length_le_iff.mpr (hdigits _ (Binary64.fits_shortest hfinite
      (Binary64.eq_ofDecimal_iff.mp hvalue').2 (hnumeral'.length_le_iff.mp le_rfl)))

/-- The number `0.30` is printed without its closing zero. -/
theorem scan_text_number_fraction :
    scan .strict "0.30".toList = .ok ⟨[⟨.number (.ofBits 0x3FD3333333333333), "0.30".toList,
      ⟨1, 1⟩⟩], ⟨.eof, [], ⟨1, 5⟩⟩⟩ ∧
    (Binary64.ofBits 0x3FD3333333333333).isFinite ∧
    scan .strict "0.3".toList = .ok ⟨[⟨.number (.ofBits 0x3FD3333333333333), "0.3".toList,
      .start⟩], ⟨.eof, [], .behind "0.3".toList⟩⟩ ∧
    ∀ text u eof, scan .strict text = .ok ⟨[u], eof⟩ → u.lexeme = text →
      u.content = .number (.ofBits 0x3FD3333333333333) → 1 ≤ (significantDigits text).length := by
  have hscan : scan .strict "0.30".toList = .ok ⟨[⟨.number (.ofBits 0x3FD3333333333333),
      "0.30".toList, ⟨1, 1⟩⟩], ⟨.eof, [], ⟨1, 5⟩⟩⟩ := by
    decide +kernel
  have hfinite : (Binary64.ofBits 0x3FD3333333333333).isFinite := by decide +kernel
  have htext : (Binary64.ofBits 0x3FD3333333333333).text = "0.3".toList := by decide +kernel
  obtain ⟨_, hvalue, hagain, hfewest⟩ :=
    scan_text_number hscan (List.mem_singleton_self _) rfl hfinite
  cases hvalue
  have hprinted : (Literal.number (.ofBits 0x3FD3333333333333)).text = "0.3".toList := htext
  rw [hprinted] at hagain hfewest
  exact ⟨hscan, hfinite, hagain, fun text u eof h hu hx => hfewest text u eof h hu hx⟩

end LoxReader
