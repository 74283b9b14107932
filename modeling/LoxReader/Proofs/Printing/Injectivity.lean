import LoxReader.Proofs.Lexical.Longest
import LoxReader.Proofs.Printing.RoundTrip

/-!
# Bracketed texts tell trees apart

The bracketed text of a tree shows where each of its nodes ends, whatever follows and whatever its
strings hold. So trees with one bracketed text have one shape and the same tokens, whether or not
their operators are ordered by their levels.
-/

namespace LoxReader

/-- Where a token ends in a bracketed text: at a blank, at a closing parenthesis or at the end. -/
def Delimited (rest : Text) : Prop := ∀ c ∈ rest.head?, isBlank c ∨ c = ')'

variable {content content' : Content} {text text' rest rest' : Text} {op : Token}

lemma delimited_closing (rest : Text) : Delimited (')' :: rest) := by
  rintro c ⟨⟩
  exact .inr rfl

lemma delimited_space (rest : Text) : Delimited (' ' :: rest) := by
  rintro c ⟨⟩
  exact .inl rfl

/-- Of texts that go on with a delimiter, the lexemes in front are the same. -/
lemma Lexeme.append_inj (h : Lexeme content text) (h' : Lexeme content' text')
    (hrest : Delimited rest) (hrest' : Delimited rest') (heq : text ++ rest = text' ++ rest') :
    content = content' ∧ text = text' ∧ rest = rest' := by
  have hpiece : Piece (.token content) text rest :=
    .token h (content.endsBefore_of_delimiter text hrest)
  have hpiece' : Piece (.token content') text' rest' :=
    .token h' (content'.endsBefore_of_delimiter text' hrest')
  obtain ⟨hshape, htext, hbehind⟩ := hpiece.unique hpiece' heq
  cases hshape
  exact ⟨rfl, htext, hbehind⟩

namespace Expr

/-- The tokens at the nodes are of the kinds that such nodes may have, on any level. -/
def Labelled : Expr → Prop
  | .literal t     => t.kind ∈ literalKinds
  | .grouping e    => e.Labelled
  | .unary op e    => op.kind ∈ unaryOperators ∧ e.Labelled
  | .binary l op r => (∃ level : Level, op.kind ∈ level.operators) ∧ l.Labelled ∧ r.Labelled

lemma Stratified.labelled {e : Expr} (h : e.Stratified) : e.Labelled := by
  induction e with
  | literal t => exact h
  | grouping e ih => exact ih h
  | unary op e ih => exact ⟨h.1, ih h.2.2⟩
  | binary l op r ihl ihr =>
    obtain ⟨level, hop, -, -, hl, hr⟩ := h
    exact ⟨⟨level, hop⟩, ihl hl, ihr hr⟩

/-- The tokens at the nodes are of such kinds, and their lexemes are texts of their contents. -/
def Legible : Expr → Prop
  | .literal t     => t.kind ∈ literalKinds ∧ Lexeme t.content t.lexeme
  | .grouping e    => e.Legible
  | .unary op e    => op.kind ∈ unaryOperators ∧ Lexeme op.content op.lexeme ∧ e.Legible
  | .binary l op r => (∃ level : Level, op.kind ∈ level.operators) ∧
      Lexeme op.content op.lexeme ∧ l.Legible ∧ r.Legible

lemma Labelled.legible {e : Expr} (h : e.Labelled)
    (htokens : ∀ t ∈ e.tokens, Lexeme t.content t.lexeme) : e.Legible := by
  induction e with
  | literal t => exact ⟨h, htokens t (List.mem_singleton_self t)⟩
  | grouping e ih => exact ih h htokens
  | unary op e ih =>
    have hoperand := ih h.2 fun t ht => htokens t (List.mem_cons_of_mem _ ht)
    exact ⟨h.1, htokens op List.mem_cons_self, hoperand⟩
  | binary l op r ihl ihr =>
    have hleft := ihl h.2.1 fun t ht => htokens t (by simp [tokens, ht])
    have hright := ihr h.2.2 fun t ht => htokens t (by simp [tokens, ht])
    exact ⟨h.1, htokens op (by simp [tokens]), hleft, hright⟩

/-! ### What opens a node -/

/-- The word that opens a grouping is no operator, but it looks like a name. -/
lemma lexeme_group : Lexeme .identifier "group".toList := by
  have hothers : "roup".toList.all continuesName := by decide
  exact IsName.lexeme ⟨'g', "roup".toList, rfl, by decide, List.all_eq_true.mp hothers⟩ (by decide)

lemma groupingHead_append (text : Text) :
    groupingHead ++ text = '(' :: ("group".toList ++ ' ' :: text) := rfl

lemma head_ne_of_literal (h : Lexeme content text) (hliteral : content.kind ∈ literalKinds) :
    text ++ rest ≠ '(' :: rest' := by
  intro heq
  cases h with
  | symbol | identifier => simp [literalKinds, Content.kind] at hliteral
  | keyword hk =>
    obtain ⟨c, others, htext⟩ := List.exists_cons_of_ne_nil (Lexeme.keyword hk).ne_nil
    rw [htext, List.cons_append] at heq
    rw [htext] at hk
    cases heq
    exact absurd (Keyword.spelling_eq_cons hk).1 (by decide)
  | string => cases heq
  | integer hc | fraction hc =>
    cases heq
    exact absurd hc (by decide)

lemma content_ne_of_unary (h : op.kind ∈ unaryOperators) : op.content ≠ .identifier := by
  intro hcontent
  simp [Token.kind, hcontent, Content.kind, unaryOperators] at h

lemma content_ne_of_binary {level : Level} (h : op.kind ∈ level.operators) :
    op.content ≠ .identifier := by
  intro hcontent
  cases level <;> simp [Token.kind, hcontent, Content.kind, Level.operators] at h

/-- A bracketed text that opens a node: the node has what opens it, and the texts of its operands
follow. -/
lemma node_cases {e : Expr} (he : e.Legible) (h : Lexeme content text)
    (heq : e.bracketed ++ rest = '(' :: (text ++ ' ' :: rest')) :
    (content = .identifier ∧ ∃ d, e = .grouping d ∧ d.bracketed ++ ')' :: rest = rest') ∨
    (∃ op d, e = .unary op d ∧ content = op.content ∧ text = op.lexeme ∧
      d.bracketed ++ ')' :: rest = rest') ∨
    ∃ l op r, e = .binary l op r ∧ content = op.content ∧ text = op.lexeme ∧
      l.bracketed ++ ' ' :: (r.bracketed ++ ')' :: rest) = rest' := by
  cases e with
  | literal t =>
    rw [bracketed_literal] at heq
    exact absurd heq (head_ne_of_literal he.2 he.1)
  | grouping d =>
    have htext : "group".toList ++ ' ' :: (d.bracketed ++ ')' :: rest) = text ++ ' ' :: rest' := by
      rw [bracketed_grouping, List.append_assoc, List.append_assoc, groupingHead_append] at heq
      exact List.tail_eq_of_cons_eq heq
    obtain ⟨hcontent, -, hrest⟩ :=
      lexeme_group.append_inj h (delimited_space _) (delimited_space _) htext
    cases hrest
    exact .inl ⟨hcontent.symm, d, rfl, rfl⟩
  | unary op d =>
    have htext : op.lexeme ++ ' ' :: (d.bracketed ++ ')' :: rest) = text ++ ' ' :: rest' := by
      simpa using heq
    obtain ⟨hcontent, hlexeme, hrest⟩ :=
      he.2.1.append_inj h (delimited_space _) (delimited_space _) htext
    cases hrest
    exact .inr (.inl ⟨op, d, rfl, hcontent.symm, hlexeme.symm, rfl⟩)
  | binary l op r =>
    have htext : op.lexeme ++ ' ' :: (l.bracketed ++ ' ' :: (r.bracketed ++ ')' :: rest))
        = text ++ ' ' :: rest' := by
      simpa using heq
    obtain ⟨hcontent, hlexeme, hrest⟩ :=
      he.2.1.append_inj h (delimited_space _) (delimited_space _) htext
    cases hrest
    exact .inr (.inr ⟨l, op, r, rfl, hcontent.symm, hlexeme.symm, rfl⟩)

/-! ### Nodes end where their texts end -/

/-- A bracketed text in front of a delimiter determines its tree and where it ends. -/
lemma bracketed_append_inj {d e : Expr} (hd : d.Legible) (he : e.Legible)
    (hrest : Delimited rest) (hrest' : Delimited rest')
    (heq : d.bracketed ++ rest = e.bracketed ++ rest') :
    d.Alike Token.Agree e ∧ rest = rest' := by
  induction d generalizing e rest rest' with
  | literal t =>
    rw [bracketed_literal] at heq
    cases e with
    | literal u =>
      rw [bracketed_literal] at heq
      obtain ⟨hcontent, hlexeme, hbehind⟩ := hd.2.append_inj he.2 hrest hrest' heq
      exact ⟨.literal ⟨hcontent, hlexeme⟩, hbehind⟩
    | grouping | unary | binary => exact absurd heq (head_ne_of_literal hd.2 hd.1)
  | grouping d ih =>
    have hnode : e.bracketed ++ rest'
        = '(' :: ("group".toList ++ ' ' :: (d.bracketed ++ ')' :: rest)) := by
      rw [← heq, bracketed_grouping, List.append_assoc, List.append_assoc, groupingHead_append,
        List.singleton_append]
    rcases node_cases he lexeme_group hnode with
      ⟨-, e, rfl, hinner⟩ | ⟨op, e, rfl, hcontent, -⟩ | ⟨l, op, r, rfl, hcontent, -⟩
    · obtain ⟨halike, hbehind⟩ := ih (e := e) hd he (delimited_closing rest)
        (delimited_closing rest') hinner.symm
      exact ⟨.grouping halike, List.tail_eq_of_cons_eq hbehind⟩
    · exact absurd hcontent.symm (content_ne_of_unary he.1)
    · obtain ⟨level, hop⟩ := he.1
      exact absurd hcontent.symm (content_ne_of_binary hop)
  | unary op d ih =>
    obtain ⟨hop, hlexeme, hd⟩ := hd
    have hnode : e.bracketed ++ rest'
        = '(' :: (op.lexeme ++ ' ' :: (d.bracketed ++ ')' :: rest)) := by
      rw [← heq]
      simp
    rcases node_cases he hlexeme hnode with
      ⟨hcontent, -⟩ | ⟨op', e, rfl, hcontent, htext, hinner⟩ | ⟨l, op', r, rfl, -, -, hinner⟩
    · exact absurd hcontent (content_ne_of_unary hop)
    · obtain ⟨halike, hbehind⟩ := ih hd he.2.2 (delimited_closing rest) (delimited_closing rest')
        hinner.symm
      exact ⟨.unary ⟨hcontent, htext⟩ halike, List.tail_eq_of_cons_eq hbehind⟩
    · -- Behind a first operand of two stands a blank, behind the only one a parenthesis.
      obtain ⟨-, hbehind⟩ := ih hd he.2.2.1 (delimited_closing rest) (delimited_space _)
        hinner.symm
      cases hbehind
  | binary l op r ihl ihr =>
    obtain ⟨⟨level, hop⟩, hlexeme, hl, hr⟩ := hd
    have hnode : e.bracketed ++ rest' = '(' :: (op.lexeme ++ ' ' ::
        (l.bracketed ++ ' ' :: (r.bracketed ++ ')' :: rest))) := by
      rw [← heq]
      simp
    rcases node_cases he hlexeme hnode with
      ⟨hcontent, -⟩ | ⟨op', e, rfl, -, -, hinner⟩ | ⟨l', op', r', rfl, hcontent, htext, hinner⟩
    · exact absurd hcontent (content_ne_of_binary hop)
    · obtain ⟨-, hbehind⟩ := ihl hl he.2.2 (delimited_space _) (delimited_closing rest')
        hinner.symm
      cases hbehind
    · obtain ⟨hleft, hbehind⟩ := ihl hl he.2.2.1 (delimited_space _) (delimited_space _)
        hinner.symm
      obtain ⟨hright, hbehind⟩ := ihr hr he.2.2.2 (delimited_closing rest)
        (delimited_closing rest') (List.tail_eq_of_cons_eq hbehind)
      exact ⟨.binary ⟨hcontent, htext⟩ hleft hright, List.tail_eq_of_cons_eq hbehind⟩

/-- Trees have the same bracketed text exactly when they have one shape and the same tokens, up to
the positions of these. Every tree that has been read is such a tree. -/
theorem bracketed_eq_iff :
    (∀ d e : Expr, d.Labelled → e.Labelled → (∀ t ∈ d.tokens ++ e.tokens, t.ScansAlone) →
      (d.bracketed = e.bracketed ↔ d.Alike Token.Agree e)) ∧
    ∀ mode source e, ofSource mode source = .ok e →
      e.Labelled ∧ ∀ t ∈ e.tokens, t.ScansAlone := by
  constructor
  · intro d e hd he htokens
    have hlexemes : ∀ t ∈ d.tokens ++ e.tokens, Lexeme t.content t.lexeme :=
      fun t ht => Token.scansAlone_iff.mp (htokens t ht)
    have hdlegible : d.Legible := hd.legible fun t ht => hlexemes t (List.mem_append_left _ ht)
    have helegible : e.Legible := he.legible fun t ht => hlexemes t (List.mem_append_right _ ht)
    constructor
    · intro heq
      have hend : Delimited [] := by simp [Delimited]
      exact (bracketed_append_inj hdlegible helegible hend hend (by rw [heq])).1
    · intro halike
      exact halike.bracketed_eq fun _ _ h => h.2
  · intro mode source e h
    obtain ⟨tokens, hscan, hparse⟩ := ofSource_eq_ok h
    have hreading := reading_of_parse hparse
    refine ⟨hreading.stratified.labelled, fun t ht => Token.scansAlone_iff.mpr ?_⟩
    exact lexeme_of_scan hscan (hreading.spells.mem_of_mem_tokens ht)

/-- One operator with one operand and with two: the parenthesis in the string closes no node. -/
theorem bracketed_eq_iff_closing :
    ofSource .strict "-\")\"".toList = .ok (unary ⟨.symbol .minus, ['-'], ⟨1, 1⟩⟩
      (literal ⟨.string [')'], ['"', ')', '"'], ⟨1, 2⟩⟩)) ∧
    ofSource .strict "\")\"-nil".toList = .ok (binary
      (literal ⟨.string [')'], ['"', ')', '"'], ⟨1, 1⟩⟩) ⟨.symbol .minus, ['-'], ⟨1, 4⟩⟩
      (literal ⟨.keyword .nil, ['n', 'i', 'l'], ⟨1, 5⟩⟩)) ∧
    (unary ⟨.symbol .minus, ['-'], ⟨1, 1⟩⟩
      (literal ⟨.string [')'], ['"', ')', '"'], ⟨1, 2⟩⟩)).bracketed
    ≠ (binary (literal ⟨.string [')'], ['"', ')', '"'], ⟨1, 1⟩⟩) ⟨.symbol .minus, ['-'], ⟨1, 4⟩⟩
      (literal ⟨.keyword .nil, ['n', 'i', 'l'], ⟨1, 5⟩⟩)).bracketed := by
  have hunary : ofSource .strict "-\")\"".toList = .ok (unary ⟨.symbol .minus, ['-'], ⟨1, 1⟩⟩
      (literal ⟨.string [')'], ['"', ')', '"'], ⟨1, 2⟩⟩)) := by decide +kernel
  have hbinary : ofSource .strict "\")\"-nil".toList = .ok (binary
      (literal ⟨.string [')'], ['"', ')', '"'], ⟨1, 1⟩⟩) ⟨.symbol .minus, ['-'], ⟨1, 4⟩⟩
      (literal ⟨.keyword .nil, ['n', 'i', 'l'], ⟨1, 5⟩⟩)) := by decide +kernel
  refine ⟨hunary, hbinary, fun heq => ?_⟩
  obtain ⟨hd, hdtokens⟩ := bracketed_eq_iff.2 _ _ _ hunary
  obtain ⟨he, hetokens⟩ := bracketed_eq_iff.2 _ _ _ hbinary
  have htokens := List.forall_mem_append.mpr ⟨hdtokens, hetokens⟩
  cases (bracketed_eq_iff.1 _ _ hd he htokens).mp heq

end Expr

end LoxReader
