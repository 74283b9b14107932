import LoxReader.Proofs.Lexical.Piece
import LoxReader.Text.Quoted

/-!
# Escapes can be told apart

A number has digits of its own, and an escape shows where it ends and which character it stands for.
So what is written between quotes can be read in one way only.
-/

namespace LoxReader

/-- Texts that go on with the same separator are the same up to the first one. -/
lemma append_cons_inj_of_not_mem {c : Char} {front front' back back' : Text} (h : c ∉ front)
    (h' : c ∉ front') (heq : front ++ c :: back = front' ++ c :: back') :
    front = front' ∧ back = back' := by
  have hstop (text : Text) : ∀ d ∈ (c :: text).head?, decide (d ≠ c) = false := by simp
  have hfront := takeWhile_append_of_stop (forall_ne_of_not_mem h) (hstop back)
  rw [heq, takeWhile_append_of_stop (forall_ne_of_not_mem h') (hstop back')] at hfront
  subst hfront
  exact ⟨rfl, List.tail_eq_of_cons_eq (List.append_cancel_left heq)⟩

/-! ### Digits -/

section

variable {base : ℕ} (hbase : 1 < base)

include hbase

lemma not_mem_toDigits {c : Char} (hc : ∀ n : ℕ, n.digitChar ≠ c) (n : ℕ) :
    c ∉ Nat.toDigits base n := by
  induction n using Nat.strongRecOn with
  | _ n ih =>
    rw [Nat.toDigits_eq_if hbase]
    split
    · simpa using (hc n).symm
    next hn =>
      have hlt : n / base < n := Nat.div_lt_self (by omega) hbase
      rw [List.mem_append, not_or]
      exact ⟨ih _ hlt, by simpa using (hc (n % base)).symm⟩

/-- Up to base sixteen, no two numbers have the same digits. -/
lemma toDigits_injective (hle : base ≤ 16) : Function.Injective (Nat.toDigits base) := by
  have hdigit : ∀ m < 16, ∀ n < 16, m.digitChar = n.digitChar → m = n := by decide
  have hlong (n : ℕ) (c d : Char) : [c] ≠ Nat.toDigits base n ++ [d] := by
    intro h
    exact Nat.toDigits_ne_nil (List.append_singleton_inj.mp (List.nil_append [c] ▸ h)).1.symm
  intro m
  induction m using Nat.strongRecOn with
  | _ m ih =>
    intro n heq
    rw [Nat.toDigits_eq_if hbase, Nat.toDigits_eq_if (n := n) hbase] at heq
    split_ifs at heq with hm hn hn
    · exact hdigit m (by omega) n (by omega) (List.singleton_inj.mp heq)
    · exact absurd heq (hlong _ _ _)
    · exact absurd heq.symm (hlong _ _ _)
    · obtain ⟨hfront, hlast⟩ := List.append_singleton_inj.mp heq
      have hquotient := ih (m / base) (Nat.div_lt_self (by omega) hbase) hfront
      have hm' := Nat.mod_lt m (Nat.zero_lt_of_lt hbase)
      have hn' := Nat.mod_lt n (Nat.zero_lt_of_lt hbase)
      have hremainder := hdigit _ (hm'.trans_le hle) _ (hn'.trans_le hle) hlast
      rw [← Nat.div_add_mod m base, hquotient, hremainder, Nat.div_add_mod]

end

namespace Text

/-! ### Escapes -/

/-- The characters that are escaped by a letter or a sign, and what stands for them. -/
def signs : List (Char × Char) :=
  [('\x00', '0'), ('\t', 't'), ('\r', 'r'), ('\n', 'n'), ('"', '"'), ('\\', '\\')]

/-- The forms of a character between quotes: itself, a sign or its code behind a backslash. -/
inductive Escapes (c : Char) : Text → Prop where
  | plain (h : c ≠ '\\') : Escapes c [c]
  | sign {d : Char} (h : (c, d) ∈ signs) : Escapes c ['\\', d]
  | code : Escapes c ('\\' :: 'u' :: '\x7b' :: (Nat.toDigits 16 c.toNat ++ ['\x7d']))

variable {c d : Char} {text text' rest rest' : Text}

lemma escapes_escape (c : Char) : Escapes c (escape c) := by
  unfold escape
  split_ifs with h₀ h₁ h₂ h₃ h₄ h₅
  · exact .sign (by simp [signs, h₀])
  · exact .sign (by simp [signs, h₁])
  · exact .sign (by simp [signs, h₂])
  · exact .sign (by simp [signs, h₃])
  · exact .sign (by simp [signs, h₄])
  · exact .sign (by simp [signs, h₅])
  · exact .plain h₅
  · exact .code

/-- No sign stands for two characters, and none looks like the start of a code. -/
lemma signs_inj : ∀ p ∈ signs, p.2 ≠ 'u' ∧ ∀ q ∈ signs, p.2 = q.2 → p.1 = q.1 := by decide

lemma code_inj
    (heq : Nat.toDigits 16 c.toNat ++ '\x7d' :: rest = Nat.toDigits 16 d.toNat ++ '\x7d' :: rest') :
    c = d ∧ rest = rest' := by
  have hclosing : ∀ n : ℕ, '\x7d' ∉ Nat.toDigits 16 n :=
    not_mem_toDigits (by decide) fun n => Nat.digitChar_ne '\x7d' rfl
  obtain ⟨hdigits, hrest⟩ := append_cons_inj_of_not_mem (hclosing _) (hclosing _) heq
  exact ⟨Char.toNat_inj.mp (toDigits_injective (by decide) (by decide) hdigits), hrest⟩

lemma Escapes.append_inj (h : Escapes c text) (h' : Escapes d text')
    (heq : text ++ rest = text' ++ rest') : c = d ∧ rest = rest' := by
  cases h with
  | plain hc =>
    cases h' with
    | plain => simpa using heq
    | sign | code => exact absurd (List.head_eq_of_cons_eq heq) hc
  | sign hc =>
    cases h' with
    | plain hd => exact absurd (List.head_eq_of_cons_eq heq).symm hd
    | sign hd =>
      obtain ⟨-, hsign, hrest⟩ : '\\' = '\\' ∧ _ = _ ∧ rest = rest' := by simpa using heq
      exact ⟨(signs_inj _ hc).2 _ hd hsign, hrest⟩
    | code => exact absurd (List.head_eq_of_cons_eq (List.tail_eq_of_cons_eq heq)) (signs_inj _ hc).1
  | code =>
    cases h' with
    | plain hd => exact absurd (List.head_eq_of_cons_eq heq).symm hd
    | sign hd =>
      exact absurd (List.head_eq_of_cons_eq (List.tail_eq_of_cons_eq heq)).symm (signs_inj _ hd).1
    | code => exact code_inj (by simpa using heq)

lemma Escapes.ne_nil (h : Escapes c text) : text ≠ [] := by
  cases h with
  | plain | sign | code => exact List.cons_ne_nil _ _

/-! ### Quoted texts -/

lemma flatMap_escape_injective : Function.Injective fun t : Text => t.flatMap escape := by
  have hne (c : Char) (t : Text) : [] ≠ escape c ++ t :=
    (List.append_ne_nil_of_left_ne_nil (escapes_escape c).ne_nil t).symm
  intro t
  induction t with
  | nil =>
    rintro (_ | ⟨d, u⟩) heq
    · rfl
    · exact absurd heq (hne d _)
  | cons c t ih =>
    rintro (_ | ⟨d, u⟩) heq
    · exact absurd heq.symm (hne c _)
    · obtain ⟨rfl, hrest⟩ := (escapes_escape c).append_inj (escapes_escape d) heq
      rw [ih hrest]

lemma quoted_injective : Function.Injective quoted := by
  intro t u heq
  exact flatMap_escape_injective (List.append_cancel_right (List.tail_eq_of_cons_eq heq))

end Text

end LoxReader
