import LoxReader.Proofs.Grammar.Diagnosis
import LoxReader.Proofs.Lexical.Tiling

/-!
# The first point of failure

Where reading stops with an error, the tokens before it can still become an expression and with the
token there they cannot.
-/

namespace LoxReader

/-- Some expression of the language starts with these tokens. -/
def Viable (ts : List Token) : Prop := ∃ rest, InGrammar (ts ++ rest)

namespace Parse

variable {t : Token} {ts front : List Token} {reason : Reason}

/-! ### Reasons and the grammar -/

/-- Of the tokens behind a failure the first one raises the reason. -/
lemma Reason.RaisedAt.cons (h : reason.RaisedAt (t :: ts)) (rest : List Token) :
    reason.RaisedAt (t :: rest) := by
  cases reason with
  | expectedExpression | expectedRightParen | tooDeeplyNested => exact h
  | expectedEnd => exact ⟨h.1, List.cons_ne_nil _ _⟩

lemma noOperator_of_closers (h : Closers ts) : NoOperator 0 ts := by
  intro t ht level hlevel
  rw [h t (List.mem_of_head? ht)] at hlevel
  cases hlevel

lemma raisedAt_of_closers (h : Closers ts) : Reason.expectedExpression.RaisedAt ts := by
  intro t ht
  simp [h t (List.mem_of_head? ht), Kind.isLiteral, Kind.isUnary]

lemma viable_of_closable (h : Closable 0 maxNesting (front ++ [t])) : Viable front := by
  obtain ⟨e, closers, -, hreading⟩ := h
  exact ⟨t :: closers, e, by simpa using hreading⟩

/-- The tokens before an error: something is missing behind them or they are an expression, and they
start none that goes on with tokens that raise the reason. -/
structure Reason.Marks (reason : Reason) (front : List Token) : Prop where
  explains : reason.Explains 0 maxNesting front ∨ reason = .expectedEnd ∧ InGrammar front
  fails {rest : List Token} : reason.RaisedAt rest → ¬ InGrammar (front ++ rest)

lemma marks_of_parse {tokens : Tokens} {err : Error} (h : parse tokens = .error err) :
    ∃ front rest, tokens.body = front ++ rest ∧ err.index = front.length ∧
      err.token = rest.headD tokens.eof ∧ err.reason.RaisedAt rest ∧ err.reason.Marks front := by
  simp only [parse] at h
  split at h
  next failure hfailure =>
    cases h
    obtain ⟨front, hbody, hraised, hexplains, hfails⟩ :=
      (expression_decides maxNesting).diagnosed hfailure
    refine ⟨front, failure.rest, hbody, by simp [Failure.inside, hbody], rfl, hraised,
      .inl hexplains, ?_⟩
    rintro rest hrest ⟨e, hreading⟩
    have hread := hreading.read
    rw [hfails rest hrest] at hread
    cases hread
  next => cases h
  next e rest hne hread =>
    cases h
    obtain ⟨front, hbody, hreading, hrest⟩ := (expression_exact maxNesting).sound hread
    refine ⟨front, rest, hbody, by simp [Failure.inside, hbody], rfl, ⟨hrest, ?_⟩,
      .inr ⟨rfl, e, hreading⟩, ?_⟩
    · rintro rfl
      exact hne rfl
    · rintro rest ⟨hrest, hne⟩ ⟨e', hreading'⟩
      have hread' := hreading'.read
      rw [(expression_exact maxNesting).complete hreading hrest] at hread'
      cases hread'
      exact hne rfl

/-- An error carries the token at its index, and lies at the last one where none of the others is
left. -/
lemma getElem?_of_parse {tokens : Tokens} {err : Error} (h : parse tokens = .error err) :
    tokens.toList[err.index]? = some err.token ∧
      (err.token = tokens.eof ∧ err.index = tokens.body.length ∨
        err.token ∈ tokens.body ∧ err.index < tokens.body.length) := by
  obtain ⟨front, rest, hbody, hindex, htoken, -, -⟩ := marks_of_parse h
  rw [Tokens.toList, hbody, hindex, htoken]
  cases rest with
  | nil => simp
  | cons t rest => simp

namespace Reason.Marks

lemma viable (h : reason.Marks front) (hdeep : reason ≠ .tooDeeplyNested) : Viable front := by
  rcases h.explains with h | ⟨-, hgrammar⟩
  · cases reason with
    | expectedExpression =>
      obtain ⟨value, hvalue⟩ := h
      exact viable_of_closable hvalue
    | expectedRightParen =>
      obtain ⟨closing, -, hclosing⟩ := h
      exact viable_of_closable hclosing
    | expectedEnd => exact h.elim
    | tooDeeplyNested => exact absurd rfl hdeep
  · exact ⟨[], by simpa using hgrammar⟩

/-- Only the end is missing behind an expression. -/
lemma expectedEnd_iff (h : reason.Marks front) (hdeep : reason ≠ .tooDeeplyNested) :
    reason = .expectedEnd ↔ InGrammar front := by
  constructor
  · rintro rfl
    exact (h.explains.resolve_left id).2
  · intro hfront
    rw [← List.append_nil front] at hfront
    cases reason with
    | expectedEnd => rfl
    | tooDeeplyNested => exact absurd rfl hdeep
    | expectedExpression => exact absurd hfront (h.fails (by simp [RaisedAt]))
    | expectedRightParen => exact absurd hfront (h.fails ⟨.nil, by simp⟩)

/-- A closing parenthesis is missing where closing parentheses alone make an expression. -/
lemma expectedRightParen_iff (h : reason.Marks front) (hdeep : reason ≠ .tooDeeplyNested) :
    reason = .expectedRightParen ↔
      ∃ closers, closers ≠ [] ∧ Closers closers ∧ InGrammar (front ++ closers) := by
  constructor
  · rintro rfl
    obtain ⟨closing, hclosing, e, closers, hclosers, hreading⟩ :=
      h.explains.resolve_right (by simp)
    refine ⟨closing :: closers, List.cons_ne_nil _ _, ?_, e, by simpa using hreading⟩
    intro t ht
    rcases List.mem_cons.mp ht with rfl | ht
    · exact hclosing
    · exact hclosers t ht
  · rintro ⟨closers, hne, hclosers, hgrammar⟩
    cases reason with
    | expectedRightParen => rfl
    | tooDeeplyNested => exact absurd rfl hdeep
    | expectedExpression => exact absurd hgrammar (h.fails (raisedAt_of_closers hclosers))
    | expectedEnd => exact absurd hgrammar (h.fails ⟨noOperator_of_closers hclosers, hne⟩)

lemma expectedExpression_iff (h : reason.Marks front) (hdeep : reason ≠ .tooDeeplyNested) :
    reason = .expectedExpression ↔ ¬ InGrammar front ∧
      ¬ ∃ closers, closers ≠ [] ∧ Closers closers ∧ InGrammar (front ++ closers) := by
  rw [← h.expectedEnd_iff hdeep, ← h.expectedRightParen_iff hdeep]
  cases reason <;> simp_all

/-- The token that raises the reason, and the end in its place, leave the grammar. -/
lemma not_viable_append (h : reason.Marks front) (hraised : reason.RaisedAt (t :: ts)) :
    ¬ Viable (front ++ [t]) := by
  rintro ⟨rest, hgrammar⟩
  rw [List.append_assoc, List.singleton_append] at hgrammar
  exact h.fails (hraised.cons rest) hgrammar

lemma of_tooDeeplyNested (h : Reason.tooDeeplyNested.Marks front) :
    ∃ before opener, front = before ++ [opener] ∧ opener.kind ∈ openers ∧ Viable before ∧
      ¬ Viable front := by
  obtain ⟨before, opener, value, rfl, hopener, hvalue⟩ := h.explains.resolve_right (by simp)
  refine ⟨before, opener, rfl, hopener, viable_of_closable hvalue, ?_⟩
  rintro ⟨rest, hgrammar⟩
  exact h.fails (show Reason.tooDeeplyNested.RaisedAt rest from trivial) hgrammar

end Reason.Marks

end Parse

/-- An error names the first token at which the tokens leave the grammar. Before it they start an
expression, with it they start none, and the reason tells what they are short of; but where they
nest too deeply, it is the opener in front of this token that is one too many. -/
theorem parse_error_first {tokens : Tokens} {err : Parse.Error} (htokens : tokens.Terminated)
    (h : parse tokens = .error err) :
    tokens.toList[err.index]? = some err.token ∧
    (err.reason ≠ .tooDeeplyNested →
      Viable (tokens.toList.take err.index) ∧
      (err.token.isEof ∧ ¬ InGrammar (tokens.toList.take err.index) ∨
        ¬ err.token.isEof ∧ ¬ Viable (tokens.toList.take (err.index + 1))) ∧
      (err.reason = .expectedEnd ↔ InGrammar (tokens.toList.take err.index)) ∧
      (err.reason = .expectedRightParen ↔ ∃ closers, closers ≠ [] ∧ Closers closers ∧
        InGrammar (tokens.toList.take err.index ++ closers)) ∧
      (err.reason = .expectedExpression ↔ ¬ InGrammar (tokens.toList.take err.index) ∧
        ¬ ∃ closers, closers ≠ [] ∧ Closers closers ∧
          InGrammar (tokens.toList.take err.index ++ closers))) ∧
    (err.reason = .tooDeeplyNested →
      1 ≤ err.index ∧
      (∃ opener, tokens.toList[err.index - 1]? = some opener ∧ opener.kind ∈ openers) ∧
      Viable (tokens.toList.take (err.index - 1)) ∧
      ¬ Viable (tokens.toList.take err.index)) := by
  obtain ⟨front, rest, hbody, hindex, htoken, hraised, hmarks⟩ := Parse.marks_of_parse h
  have hlist : tokens.toList = front ++ (rest ++ [tokens.eof]) := by
    rw [Tokens.toList, hbody, List.append_assoc]
  have hfront : tokens.toList.take err.index = front := by
    rw [hlist, hindex, List.take_left]
  rw [hfront]
  refine ⟨?_, fun hdeep => ⟨hmarks.viable hdeep, ?_, hmarks.expectedEnd_iff hdeep,
    hmarks.expectedRightParen_iff hdeep, hmarks.expectedExpression_iff hdeep⟩, fun hdeep => ?_⟩
  · rw [hlist, hindex, htoken]
    cases rest <;> simp
  · cases rest with
    | nil =>
      refine .inl ⟨htoken ▸ htokens.eof, ?_⟩
      rw [← List.append_nil front]
      exact hmarks.fails hraised
    | cons t rest =>
      have htake : tokens.toList.take (err.index + 1) = front ++ [t] := by
        rw [hlist, hindex, List.take_length_add_append]
        rfl
      rw [htake]
      refine .inr ⟨?_, hmarks.not_viable_append hraised⟩
      rw [htoken]
      exact htokens.body t (by simp [hbody])
  · rw [hdeep] at hmarks
    obtain ⟨before, opener, rfl, hopener, hviable, hnot⟩ := hmarks.of_tooDeeplyNested
    have hlength : err.index = before.length + 1 := by simpa using hindex
    have hbefore : tokens.toList.take before.length = before := by
      rw [hlist, List.append_assoc, List.take_left]
    refine ⟨by omega, ⟨opener, ?_, hopener⟩, ?_, hnot⟩
    · rw [hlength, hlist]
      simp
    · rw [hlength, Nat.add_sub_cancel, hbefore]
      exact hviable

/-- In `(nil nil` a closing parenthesis is missing in front of the second literal. -/
theorem parse_error_first_unclosed :
    (⟨[⟨.symbol .leftParen, "(".toList, ⟨1, 1⟩⟩, ⟨.keyword .nil, "nil".toList, ⟨1, 2⟩⟩,
        ⟨.keyword .nil, "nil".toList, ⟨1, 6⟩⟩], ⟨.eof, [], ⟨1, 9⟩⟩⟩ : Tokens).Terminated ∧
    parse ⟨[⟨.symbol .leftParen, "(".toList, ⟨1, 1⟩⟩, ⟨.keyword .nil, "nil".toList, ⟨1, 2⟩⟩,
        ⟨.keyword .nil, "nil".toList, ⟨1, 6⟩⟩], ⟨.eof, [], ⟨1, 9⟩⟩⟩
      = .error ⟨.expectedRightParen, 2, ⟨.keyword .nil, "nil".toList, ⟨1, 6⟩⟩⟩ ∧
    Viable [⟨.symbol .leftParen, "(".toList, ⟨1, 1⟩⟩, ⟨.keyword .nil, "nil".toList, ⟨1, 2⟩⟩] ∧
    ¬ Viable [⟨.symbol .leftParen, "(".toList, ⟨1, 1⟩⟩, ⟨.keyword .nil, "nil".toList, ⟨1, 2⟩⟩,
        ⟨.keyword .nil, "nil".toList, ⟨1, 6⟩⟩] := by
  have htokens : (⟨[⟨.symbol .leftParen, "(".toList, ⟨1, 1⟩⟩,
      ⟨.keyword .nil, "nil".toList, ⟨1, 2⟩⟩, ⟨.keyword .nil, "nil".toList, ⟨1, 6⟩⟩],
      ⟨.eof, [], ⟨1, 9⟩⟩⟩ : Tokens).Terminated := ⟨by decide, by decide⟩
  have h : parse ⟨[⟨.symbol .leftParen, "(".toList, ⟨1, 1⟩⟩,
      ⟨.keyword .nil, "nil".toList, ⟨1, 2⟩⟩, ⟨.keyword .nil, "nil".toList, ⟨1, 6⟩⟩],
      ⟨.eof, [], ⟨1, 9⟩⟩⟩
        = .error ⟨.expectedRightParen, 2, ⟨.keyword .nil, "nil".toList, ⟨1, 6⟩⟩⟩ := by
    decide +kernel
  obtain ⟨-, hshallow, -⟩ := parse_error_first htokens h
  obtain ⟨hviable, hnot, -⟩ := hshallow (by decide)
  exact ⟨htokens, h, hviable, (hnot.resolve_left fun heof => absurd heof.1 (by decide)).2⟩

end LoxReader
