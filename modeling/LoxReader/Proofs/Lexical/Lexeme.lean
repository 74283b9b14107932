import LoxReader.Token.Scan
import Mathlib.Tactic.ByContra
import Mathlib.Tactic.Lemma

/-!
# Lexemes

Which texts are tokens, and which characters nothing starts with: the vocabulary of a source, said
without the way it is cut.
-/

namespace LoxReader

def Symbol.spelling : Symbol → Text
  | .leftParen    => ['(']
  | .rightParen   => [')']
  | .leftBrace    => ['\x7b']
  | .rightBrace   => ['\x7d']
  | .comma        => [',']
  | .dot          => ['.']
  | .minus        => ['-']
  | .plus         => ['+']
  | .semicolon    => [';']
  | .slash        => ['/']
  | .star         => ['*']
  | .bang         => ['!']
  | .bangEqual    => ['!', '=']
  | .equal        => ['=']
  | .equalEqual   => ['=', '=']
  | .greater      => ['>']
  | .greaterEqual => ['>', '=']
  | .less         => ['<']
  | .lessEqual    => ['<', '=']

/-- The texts of the tokens with a given content. -/
inductive Lexeme : Content → Text → Prop where
  | symbol {s : Symbol} {text : Text} (h : s.spelling = text) : Lexeme (.symbol s) text
  | keyword {k : Keyword} {text : Text} (h : k.spelling.toList = text) : Lexeme (.keyword k) text
  | identifier {c : Char} {others : Text} (hc : startsName c)
      (hothers : ∀ d ∈ others, continuesName d)
      (h : ∀ k : Keyword, k.spelling.toList ≠ c :: others) : Lexeme .identifier (c :: others)
  | string {value : Text} (h : '"' ∉ value) : Lexeme (.string value) ('"' :: (value ++ ['"']))
  | integer {c : Char} {digits : Text} (hc : c.isDigit) (hdigits : ∀ d ∈ digits, d.isDigit) :
      Lexeme (.number (.ofDecimal (.ofDigits (c :: digits) []))) (c :: digits)
  | fraction {c d : Char} {digits fraction : Text} (hc : c.isDigit)
      (hdigits : ∀ d ∈ digits, d.isDigit) (hd : d.isDigit) (hfraction : ∀ d ∈ fraction, d.isDigit) :
      Lexeme (.number (.ofDecimal (.ofDigits (c :: digits) (d :: fraction))))
        (c :: (digits ++ '.' :: d :: fraction))

/-- Neither a token nor a blank starts with this character, and so no comment. -/
def StartsNothing (c : Char) : Prop :=
  isBlank c = false ∧ ∀ content text, ¬ Lexeme content (c :: text)

/-! ### Classes of characters -/

lemma continuesName_of_isDigit {c : Char} (h : c.isDigit) : continuesName c := by
  simp [continuesName, Char.isAlphanum, h]

lemma continuesName_of_startsName {c : Char} (h : startsName c) : continuesName c := by
  simp only [startsName, Bool.or_eq_true] at h
  simp only [continuesName, Char.isAlphanum, Bool.or_eq_true]
  rcases h with h | h
  · exact Or.inl (Or.inl h)
  · exact Or.inr h

lemma continuesName_of_isBlank {c : Char} (h : isBlank c) : continuesName c = false := by
  simp only [isBlank, Bool.or_eq_true, decide_eq_true_eq] at h
  rcases h with ((rfl | rfl) | rfl) | rfl <;> decide

lemma isBlank_of_continuesName {c : Char} (h : continuesName c) : isBlank c = false := by
  by_contra hblank
  rw [Bool.not_eq_false] at hblank
  rw [continuesName_of_isBlank hblank] at h
  cases h

lemma isDigit_of_isBlank {c : Char} (h : isBlank c) : c.isDigit = false := by
  by_contra hdigit
  rw [Bool.not_eq_false] at hdigit
  rw [isBlank_of_continuesName (continuesName_of_isDigit hdigit)] at h
  cases h

lemma isDigit_of_startsName {c : Char} (h : startsName c) : c.isDigit = false := by
  by_contra hdigit
  rw [Bool.not_eq_false, Char.isDigit_iff_toNat] at hdigit
  simp only [startsName, Bool.or_eq_true, decide_eq_true_eq] at h
  rcases h with h | rfl
  · change decide ('A'.val ≤ c.val ∧ c.val ≤ 'Z'.val) ||
      (decide ('a'.val ≤ c.val) && decide (c.val ≤ 'z'.val)) at h
    simp only [Bool.or_eq_true, Bool.and_eq_true, decide_eq_true_eq] at h
    rcases h with h | h
    · exact absurd (Nat.le_trans (UInt32.le_iff_toNat_le.mp h.1) hdigit.2) (by decide)
    · exact absurd (Nat.le_trans (UInt32.le_iff_toNat_le.mp h.1) hdigit.2) (by decide)
  · exact absurd hdigit.2 (by decide)

lemma StartsNothing.ne_of_isBlank {c d : Char} (h : StartsNothing c) (hd : isBlank d) : c ≠ d := by
  rintro rfl
  rw [h.1] at hd
  cases hd

/-! ### Symbols and keywords -/

lemma Symbol.spelling_of_ofChar? {c : Char} {s : Symbol} (h : ofChar? c = some s) :
    s.spelling = [c] := by
  simp only [ofChar?] at h
  split at h <;> cases h <;> rfl

lemma Symbol.spelling_of_withEqual? {s t : Symbol} (h : s.withEqual? = some t) :
    t.spelling = s.spelling ++ ['='] := by
  cases s <;> cases h <;> rfl

/-- A symbol is one character, or one that an equals sign has been added to. -/
lemma Symbol.spelling_eq_cons {s : Symbol} {c : Char} {taken : Text} (h : s.spelling = c :: taken) :
    (taken = [] ∧ ofChar? c = some s) ∨
      (taken = ['='] ∧ s.withEqual? = none ∧ s ≠ .slash ∧
        ∃ first, ofChar? c = some first ∧ first.withEqual? = some s) := by
  cases s <;> cases h <;> decide

lemma Symbol.not_isBlank {c : Char} {s : Symbol} (h : ofChar? c = some s) :
    isBlank c = false ∧ c.isDigit = false ∧ startsName c = false ∧ c ≠ '"' := by
  simp only [ofChar?] at h
  split at h <;> first | cases h; done | decide

lemma Keyword.ofText?_spelling (k : Keyword) : ofText? k.spelling.toList = some k := by
  cases k <;> rfl

lemma Keyword.spelling_of_ofText? {text : Text} {k : Keyword} (h : ofText? text = some k) :
    k.spelling.toList = text := by
  simpa using List.find?_some h

lemma Keyword.ofText?_eq_none {text : Text} (h : ∀ k : Keyword, k.spelling.toList ≠ text) :
    ofText? text = none := by
  simp [ofText?, h]

/-- Keywords look like names. -/
lemma Keyword.spelling_eq_cons {k : Keyword} {c : Char} {others : Text}
    (h : k.spelling.toList = c :: others) :
    startsName c ∧ ∀ d ∈ others, continuesName d := by
  have hname : startsName c && others.all continuesName := by
    cases k <;> cases h <;> decide
  simpa using hname

/-! ### How lexemes start -/

lemma Lexeme.ne_nil {content : Content} {text : Text} (h : Lexeme content text) : text ≠ [] := by
  cases h with
  | @symbol s _ h =>
    rintro rfl
    cases s <;> cases h
  | @keyword k _ h =>
    rintro rfl
    cases k <;> cases h
  | identifier | string | integer | fraction => exact List.cons_ne_nil _ _

/-- Only strings hold blanks. -/
lemma Lexeme.string_of_isBlank {content : Content} {text : Text} {c : Char}
    (h : Lexeme content text) (hc : c ∈ text) (hblank : isBlank c) :
    ∃ value, content = .string value := by
  have hname (d : Char) (hd : continuesName d) : isBlank d = false := isBlank_of_continuesName hd
  have hdigit (d : Char) (hd : d.isDigit) : isBlank d = false :=
    hname d (continuesName_of_isDigit hd)
  have hnone (hall : ∀ d ∈ text, isBlank d = false) : ∃ value, content = .string value := by
    rw [hall c hc] at hblank
    cases hblank
  cases h with
  | @symbol s _ h =>
    have hall : s.spelling.all (!isBlank ·) := by cases s <;> decide
    exact hnone (by simpa [h] using hall)
  | @keyword k _ h =>
    have hall : k.spelling.toList.all (!isBlank ·) := by cases k <;> decide
    exact hnone (by simpa [h] using hall)
  | identifier hfirst hothers =>
    exact hnone (List.forall_mem_cons.mpr ⟨hname _ (continuesName_of_startsName hfirst),
      fun d hd => hname d (hothers d hd)⟩)
  | string => exact ⟨_, rfl⟩
  | integer hfirst hdigits =>
    exact hnone (List.forall_mem_cons.mpr ⟨hdigit _ hfirst, fun d hd => hdigit d (hdigits d hd)⟩)
  | fraction hfirst hdigits hd hfraction =>
    refine hnone (List.forall_mem_cons.mpr ⟨hdigit _ hfirst, List.forall_mem_append.mpr
      ⟨fun d hd => hdigit d (hdigits d hd), List.forall_mem_cons.mpr ⟨by decide, ?_⟩⟩⟩)
    exact List.forall_mem_cons.mpr ⟨hdigit _ hd, fun d hd => hdigit d (hfraction d hd)⟩

/-- What starts nothing is none of the characters that something starts with. -/
lemma startsNothing_iff {c : Char} :
    StartsNothing c ↔ isBlank c = false ∧ c.isDigit = false ∧ startsName c = false ∧ c ≠ '"' ∧
      Symbol.ofChar? c = none := by
  constructor
  · rintro ⟨hblank, h⟩
    refine ⟨hblank, ?_, ?_, ?_, ?_⟩
    · by_contra hc
      rw [Bool.not_eq_false] at hc
      exact h _ [] (.integer hc (by simp))
    · by_contra hc
      rw [Bool.not_eq_false] at hc
      by_cases hk : ∃ k : Keyword, k.spelling.toList = [c]
      · obtain ⟨k, hk⟩ := hk
        exact h _ [] (.keyword hk)
      · exact h _ [] (.identifier hc (by simp) (fun k heq => hk ⟨k, heq⟩))
    · rintro rfl
      exact h (.string []) ['"'] (.string (by simp))
    · rw [Option.eq_none_iff_forall_ne_some]
      intro s hs
      exact h _ [] (.symbol (Symbol.spelling_of_ofChar? hs))
  · rintro ⟨hblank, hdigit, hname, hquote, hsymbol⟩
    refine ⟨hblank, fun content text h => ?_⟩
    cases h with
    | symbol hs =>
      rcases Symbol.spelling_eq_cons hs with ⟨-, hc⟩ | ⟨-, -, -, first, hc, -⟩ <;> simp_all
    | keyword hk => simp [(Keyword.spelling_eq_cons hk).1] at hname
    | identifier hc => simp [hc] at hname
    | string => exact hquote rfl
    | integer hc | fraction hc => simp [hc] at hdigit

end LoxReader
