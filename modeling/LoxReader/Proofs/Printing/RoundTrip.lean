import LoxReader.Expr.OfSource
import LoxReader.Proofs.Grammar.Simulation
import LoxReader.Proofs.Lexical.Written

/-!
# Infix texts read back

The infix text of a tree of the grammar is written in the tokens that the tree spells: blanks keep a
binary operator apart from its operands, and what stands behind a unary operator cannot be joined to
it. So the text reads back as the tree. Where a tree is not in the grammar, no text does.
-/

namespace LoxReader

namespace Expr

/-- The tokens at the nodes of a tree, in order. -/
def tokens : Expr → List Token
  | .literal t     => [t]
  | .grouping e    => e.tokens
  | .unary op e    => op :: e.tokens
  | .binary l op r => l.tokens ++ op :: r.tokens

/-- The tokens of a tree with parentheses around what a grouping holds. -/
def spelled : Expr → List Token
  | .literal t     => [t]
  | .grouping e    => .leftParen :: e.spelled ++ [.rightParen]
  | .unary op e    => op :: e.spelled
  | .binary l op r => l.spelled ++ op :: r.spelled

lemma spells_spelled (e : Expr) : e.Spells e.spelled := by
  induction e with
  | literal t => exact .literal t
  | grouping e ih => exact .grouping rfl rfl ih
  | unary op e ih => exact .unary op ih
  | binary l op r ihl ihr => exact .binary op ihl ihr

lemma Spells.mem_of_mem_tokens {e : Expr} {ts : List Token} {t : Token} (h : e.Spells ts)
    (ht : t ∈ e.tokens) : t ∈ ts := by
  induction h with
  | literal => exact ht
  | grouping _ _ _ ih =>
    rw [List.mem_append, List.mem_cons]
    exact .inl (.inr (ih ht))
  | unary op _ ih =>
    rcases List.mem_cons.mp ht with rfl | ht
    · exact List.mem_cons_self
    · exact List.mem_cons_of_mem _ (ih ht)
  | binary op _ _ ihl ihr =>
    rcases List.mem_append.mp ht with ht | ht
    · exact List.mem_append_left _ (ihl ht)
    rcases List.mem_cons.mp ht with rfl | ht
    · simp
    · exact List.mem_append_right _ (List.mem_cons_of_mem _ (ihr ht))

end Expr

/-! ### Unary operators -/

lemma Lexeme.unary_cases {content : Content} {text : Text} (h : Lexeme content text)
    (hop : content.kind ∈ unaryOperators) :
    content = .symbol .bang ∧ text = ['!'] ∨ content = .symbol .minus ∧ text = ['-'] := by
  cases h with
  | @symbol s _ h =>
    subst h
    cases s <;> simp_all [unaryOperators, Content.kind, Symbol.spelling]
  | keyword | identifier | string | integer | fraction => simp [unaryOperators, Content.kind] at hop

/-- Only an equals sign can be joined to a unary operator. -/
lemma Lexeme.endsBefore_of_unary {content : Content} {text rest : Text} (h : Lexeme content text)
    (hop : content.kind ∈ unaryOperators) (hrest : rest.head? ≠ some '=') :
    content.EndsBefore text rest := by
  rcases h.unary_cases hop with ⟨rfl, -⟩ | ⟨rfl, -⟩
  · exact ⟨fun _ => hrest, by rintro ⟨⟩⟩
  · exact ⟨fun _ => hrest, by rintro ⟨⟩⟩

/-- No literal starts with an equals sign. -/
lemma Lexeme.head_ne_of_literal {content : Content} {c : Char} {text : Text}
    (h : Lexeme content (c :: text)) (hliteral : content.kind ∈ literalKinds) : c ≠ '=' := by
  rintro rfl
  cases h with
  | symbol | identifier => simp [literalKinds, Content.kind] at hliteral
  | keyword h => exact absurd (Keyword.spelling_eq_cons h).1 (by decide)
  | integer hc | fraction hc => exact absurd hc (by decide)

namespace Expr

/-- An infix text starts with no equals sign, so it makes no other symbol of a unary operator. -/
lemma source_eq_cons {e : Expr} (htokens : ∀ t ∈ e.tokens, Lexeme t.content t.lexeme)
    (h : e.Stratified) : ∃ c text, e.source = c :: text ∧ c ≠ '=' := by
  induction e with
  | literal t =>
    have ht := htokens t (List.mem_singleton_self t)
    obtain ⟨c, text, hlexeme⟩ := List.exists_cons_of_ne_nil ht.ne_nil
    rw [hlexeme] at ht
    exact ⟨c, text, by rw [source_literal, hlexeme], ht.head_ne_of_literal h⟩
  | grouping e => exact ⟨'(', e.source ++ [')'], by simp, by decide⟩
  | unary op e =>
    rcases (htokens op List.mem_cons_self).unary_cases h.1 with ⟨-, hlexeme⟩ | ⟨-, hlexeme⟩
    · exact ⟨'!', e.source, by simp [hlexeme], by decide⟩
    · exact ⟨'-', e.source, by simp [hlexeme], by decide⟩
  | binary l op r ihl =>
    obtain ⟨-, -, -, -, hl, -⟩ := h
    obtain ⟨c, text, hsource, hc⟩ := ihl (fun t ht => htokens t (List.mem_append_left _ ht)) hl
    exact ⟨c, text ++ ' ' :: op.lexeme ++ ' ' :: r.source, by simp [hsource], hc⟩

/-! ### The tokens of an infix text -/

/-- The infix text of a tree is written in the tokens that the tree spells, in front of all texts
that an expression ends before. -/
lemma written_source {e : Expr} (htokens : ∀ t ∈ e.tokens, Lexeme t.content t.lexeme)
    (h : e.Stratified) {rest : Text} (hrest : ∀ c ∈ rest.head?, isBlank c ∨ c = ')') :
    Written .strict rest e.spelled e.source := by
  induction e generalizing rest with
  | literal t =>
    rw [source_literal]
    have ht := htokens t (List.mem_singleton_self t)
    exact .of_lexeme ht (t.content.endsBefore_of_delimiter t.lexeme hrest)
  | grouping e ih =>
    have hopening : Lexeme Token.leftParen.content Token.leftParen.lexeme := .symbol rfl
    have hclosing : Lexeme Token.rightParen.content Token.rightParen.lexeme := .symbol rfl
    have hends : Token.rightParen.content.EndsBefore Token.rightParen.lexeme rest :=
      Content.endsBefore_of_delimiter _ _ hrest
    have hinner : Written .strict (Token.rightParen.lexeme ++ rest) e.spelled e.source :=
      ih htokens h (by simp [Token.rightParen])
    rw [source_grouping]
    refine .token hopening ?_ (hinner.append (.of_lexeme hclosing hends))
    exact ⟨fun h => absurd rfl h, by rintro ⟨⟩⟩
  | unary op e ih =>
    obtain ⟨hop, -, hoperand⟩ := h
    have hinner : ∀ t ∈ e.tokens, Lexeme t.content t.lexeme := by
      intro t ht
      exact htokens t (List.mem_cons_of_mem _ ht)
    have hlexeme := htokens op List.mem_cons_self
    obtain ⟨c, text, hsource, hc⟩ := source_eq_cons hinner hoperand
    have hne : (e.source ++ rest).head? ≠ some '=' := by simpa [hsource] using hc
    rw [source_unary]
    exact .token hlexeme (hlexeme.endsBefore_of_unary hop hne) (ih hinner hoperand hrest)
  | binary l op r ihl ihr =>
    obtain ⟨-, -, -, -, hl, hr⟩ := h
    have hright := ihr (fun t ht => htokens t (by simp [tokens, ht])) hr hrest
    have hblank : Written .strict rest r.spelled ([' '] ++ r.source) := .trivia (.blank rfl) hright
    have hop : Written .strict rest (op :: r.spelled) (op.lexeme ++ ([' '] ++ r.source)) := by
      refine .token (htokens op (by simp [tokens])) ?_ hblank
      exact op.content.endsBefore_of_delimiter op.lexeme (by simp [isBlank])
    have hbehind : Written .strict rest (op :: r.spelled)
        ([' '] ++ (op.lexeme ++ ([' '] ++ r.source))) := .trivia (.blank rfl) hop
    have hleft := ihl (fun t ht => htokens t (by simp [tokens, ht])) hl
      (show ∀ c ∈ ([' '] ++ (op.lexeme ++ ([' '] ++ r.source)) ++ rest).head?, _ by simp [isBlank])
    rw [source_binary]
    simpa [spelled] using hleft.append hbehind

/-! ### Reading an infix text -/

lemma ofSource_eq_ok {mode : Mode} {source : Text} {e : Expr}
    (h : Expr.ofSource mode source = .ok e) :
    ∃ tokens, scan mode source = .ok tokens ∧ parse tokens = .ok e := by
  simp only [Expr.ofSource] at h
  split at h
  · cases h
  next tokens hscan =>
    split at h
    · cases h
    next hparse =>
      cases h
      exact ⟨tokens, hscan, hparse⟩

/-- The infix text of a tree of the grammar reads back as this tree. -/
lemma ofSource_source {e : Expr} (htokens : ∀ t ∈ e.tokens, Lexeme t.content t.lexeme)
    (h : e.Stratified) (hnesting : e.nesting ≤ maxNesting) :
    ∃ d, ofSource .strict e.source = .ok d ∧ e.Alike Token.Agree d := by
  obtain ⟨tokens, hscan, hagree⟩ :=
    (written_source htokens h (show ∀ c ∈ ([] : Text).head?, _ by simp)).scan_eq_ok
  have hparse : parse ⟨e.spelled, tokens.eof⟩ = .ok e :=
    parse_eq_ok ⟨e.spells_spelled, h, Nat.zero_le _, hnesting⟩
  have heof : Token.Agree tokens.eof tokens.eof := ⟨rfl, rfl⟩
  have hbody : List.Forall₂ Token.Agree (Tokens.mk e.spelled tokens.eof).body tokens.body := hagree
  rcases parse_inStep Token.kind_eq_of_agree hbody heof with
    ⟨e', d, he, hd, halike⟩ | ⟨a, b, ha, -⟩
  · rw [hparse] at he
    cases he
    exact ⟨d, by simp only [ofSource, hscan, hd], halike⟩
  · rw [hparse] at ha
    cases ha

/-- An infix text reads back as its tree, up to the positions of the tokens, exactly when this tree
is in the grammar. In particular the infix text of every tree that has been read does. -/
theorem ofSource_source_iff :
    (∀ e : Expr, (∀ t ∈ e.tokens, t.ScansAlone) →
      ((∃ d, ofSource .strict e.source = .ok d ∧ e.Alike Token.Agree d) ↔
        e.Stratified ∧ e.nesting ≤ maxNesting)) ∧
    ∀ mode source e, ofSource mode source = .ok e →
      ∃ d, ofSource .strict e.source = .ok d ∧ e.Alike Token.Agree d := by
  constructor
  · intro e htokens
    constructor
    · rintro ⟨d, hd, halike⟩
      obtain ⟨tokens, -, hparse⟩ := ofSource_eq_ok hd
      have hreading := reading_of_parse hparse
      refine ⟨(halike.stratified_iff Token.kind_eq_of_agree).mpr hreading.stratified, ?_⟩
      rw [halike.nesting_eq]
      exact hreading.nesting_le
    · rintro ⟨hstratified, hnesting⟩
      have hlexemes : ∀ t ∈ e.tokens, Lexeme t.content t.lexeme := by
        intro t ht
        exact Token.scansAlone_iff.mp (htokens t ht)
      exact ofSource_source hlexemes hstratified hnesting
  · intro mode source e h
    obtain ⟨tokens, hscan, hparse⟩ := ofSource_eq_ok h
    have hreading := reading_of_parse hparse
    refine ofSource_source (fun t ht => ?_) hreading.stratified hreading.nesting_le
    exact lexeme_of_scan hscan (hreading.spells.mem_of_mem_tokens ht)

/-- Two unary operators and a string that looks like a comment, and a source with a gap that is
lost. -/
theorem ofSource_source_iff_unary :
    (∃ d, ofSource .strict "!-\"//\"".toList = .ok d ∧
      (unary ⟨.symbol .bang, "!".toList, ⟨1, 1⟩⟩ (unary ⟨.symbol .minus, "-".toList, ⟨1, 1⟩⟩
        (literal ⟨.string "//".toList, "\"//\"".toList, ⟨1, 1⟩⟩))).Alike Token.Agree d) ∧
    ofSource .lenient "- #nil".toList = .ok (unary ⟨.symbol .minus, "-".toList, ⟨1, 1⟩⟩
      (literal ⟨.keyword .nil, "nil".toList, ⟨1, 4⟩⟩)) ∧
    ∃ d, ofSource .strict "-nil".toList = .ok d ∧
      (unary ⟨.symbol .minus, "-".toList, ⟨1, 1⟩⟩
        (literal ⟨.keyword .nil, "nil".toList, ⟨1, 4⟩⟩)).Alike Token.Agree d := by
  have hlenient : ofSource .lenient "- #nil".toList = .ok
      (unary ⟨.symbol .minus, "-".toList, ⟨1, 1⟩⟩
        (literal ⟨.keyword .nil, "nil".toList, ⟨1, 4⟩⟩)) := by decide +kernel
  refine ⟨(ofSource_source_iff.1 (unary ⟨.symbol .bang, "!".toList, ⟨1, 1⟩⟩
    (unary ⟨.symbol .minus, "-".toList, ⟨1, 1⟩⟩
      (literal ⟨.string "//".toList, "\"//\"".toList, ⟨1, 1⟩⟩))) ?_).mpr ?_, hlenient,
    ofSource_source_iff.2 _ _ _ hlenient⟩
  · intro t ht
    rw [Token.scansAlone_iff]
    simp only [tokens, List.mem_cons, List.not_mem_nil, or_false] at ht
    rcases ht with rfl | rfl | rfl
    · exact .symbol rfl
    · exact .symbol rfl
    · exact .string (by decide)
  · simp [Stratified, rank, nesting, unaryOperators, literalKinds, Token.kind, Content.kind,
      maxNesting]

end Expr

end LoxReader
