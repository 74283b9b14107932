import LoxReader.Proofs.Grammar.Exact

/-!
# How a rule fails

What a rule does in front of the token at which it stops depends on the reason alone, so the tokens
before it fail in the same way whatever follows; and a literal and closing parentheses complete
them to a tree.
-/

namespace LoxReader

/-- The kinds that enclose what follows them: a unary operator, or what opens a grouping. -/
def openers : List Kind := [.symbol .leftParen, .symbol .bang, .symbol .minus]

def Closers (ts : List Token) : Prop := ∀ t ∈ ts, t.kind = .symbol .rightParen

/-- Nothing but closing parentheses is missing to a tree for these tokens. -/
def Closable (rank nesting : Nat) (ts : List Token) : Prop :=
  ∃ e closers, Closers closers ∧ Reading rank nesting e (ts ++ closers)

namespace Parse

/-- The tokens in front of which a rule stops for this reason, once it has come there. -/
def Reason.RaisedAt : Reason → List Token → Prop
  | .expectedExpression, ts =>
    ∀ t ∈ ts.head?, ¬ t.kind.isLiteral ∧ ¬ t.kind.isUnary ∧ t.kind ≠ .symbol .leftParen
  | .expectedRightParen, ts => NoOperator 0 ts ∧ ∀ t ∈ ts.head?, t.kind ≠ .symbol .rightParen
  | .expectedEnd, ts        => NoOperator 0 ts ∧ ts ≠ []
  | .tooDeeplyNested, _     => True

/-- What the tokens before a failure are short of. A rule never asks for the end. -/
def Reason.Explains (rank nesting : Nat) : Reason → List Token → Prop
  | .expectedExpression, front => ∃ value, Closable rank nesting (front ++ [value])
  | .expectedRightParen, front =>
    ∃ closing, closing.kind = .symbol .rightParen ∧ Closable rank nesting (front ++ [closing])
  | .expectedEnd, _            => False
  | .tooDeeplyNested, front    => ∃ before opener value, front = before ++ [opener] ∧
      opener.kind ∈ openers ∧ Closable rank nesting (before ++ [value])

/-- The tokens read before a failure explain it, and behind them reading fails in front of all
tokens that raise the reason. -/
def Diagnosed (read : List Token → Except Failure (Expr × List Token)) (rank nesting : Nat)
    (ts : List Token) (failure : Failure) : Prop :=
  ∃ front, ts = front ++ failure.rest ∧ failure.reason.RaisedAt failure.rest ∧
    failure.reason.Explains rank nesting front ∧
    ∀ rest, failure.reason.RaisedAt rest → read (front ++ rest) = .error ⟨failure.reason, rest⟩

/-- A rule that reads exactly and whose failures are diagnosed. -/
structure Rule.Decides (rule : Rule) (rank nesting : Nat) : Prop
    extends rule.Exact rank nesting where
  diagnosed {ts : List Token} {failure : Failure} :
    rule.read ts = .error failure → Diagnosed rule.read rank nesting ts failure

variable {rank nesting : Nat} {level : Level} {rule : Rule} {e left : Expr} {op t : Token}
  {ts front rest : List Token} {failure : Failure} {reason : Reason}

/-! ### Completing tokens to a tree -/

/-- What can be completed inside of a larger tree can be completed together with it. -/
lemma Reason.Explains.prepend {looser outer : Nat} {before : List Token}
    (hcontext : ∀ ts, Closable rank nesting ts → Closable looser outer (before ++ ts))
    (h : reason.Explains rank nesting front) :
    reason.Explains looser outer (before ++ front) := by
  cases reason with
  | expectedExpression =>
    obtain ⟨value, hvalue⟩ := h
    exact ⟨value, by simpa using hcontext _ hvalue⟩
  | expectedRightParen =>
    obtain ⟨closing, hkind, hclosing⟩ := h
    exact ⟨closing, hkind, by simpa using hcontext _ hclosing⟩
  | expectedEnd => exact h
  | tooDeeplyNested =>
    obtain ⟨inner, opener, value, rfl, hkind, hvalue⟩ := h
    exact ⟨before ++ inner, opener, value, by simp, hkind, by simpa using hcontext _ hvalue⟩

/-- A failure of what is read inside of a larger tree is a failure of the larger tree, with more
tokens before it. -/
lemma Diagnosed.prepend {inner outer : List Token → Except Failure (Expr × List Token)}
    {looser deeper : Nat} {before : List Token}
    (hcontext : ∀ ts, Closable rank nesting ts → Closable looser deeper (before ++ ts))
    (hread : ∀ ts failure, inner ts = .error failure → outer (before ++ ts) = .error failure)
    (h : Diagnosed inner rank nesting ts failure) :
    Diagnosed outer looser deeper (before ++ ts) failure := by
  obtain ⟨front, rfl, hraised, hexplains, hfails⟩ := h
  refine ⟨before ++ front, by simp, hraised, hexplains.prepend hcontext, ?_⟩
  intro rest hrest
  rw [List.append_assoc]
  exact hread _ _ (hfails rest hrest)

lemma closable_of_le {looser : Nat} (hle : looser ≤ rank) (h : Closable rank nesting ts) :
    Closable looser nesting ts := by
  obtain ⟨e, closers, hclosers, hreading⟩ := h
  exact ⟨e, closers, hclosers, hreading.of_le hle⟩

lemma closable_literal (ht : t.kind.isLiteral) : Closable operandRank nesting [t] :=
  ⟨.literal t, [], by simp [Closers], .literal ht⟩

lemma closable_unary (hop : op.kind.isUnary) (h : Closable operandRank nesting ts) :
    Closable operandRank (nesting + 1) ([op] ++ ts) := by
  obtain ⟨e, closers, hclosers, hreading⟩ := h
  exact ⟨.unary op e, closers, hclosers, .unary hop hreading⟩

lemma closable_grouping {opening : Token} (hopening : opening.kind = .symbol .leftParen)
    (h : Closable 0 nesting ts) : Closable operandRank (nesting + 1) ([opening] ++ ts) := by
  obtain ⟨e, closers, hclosers, hreading⟩ := h
  refine ⟨.grouping e, closers ++ [.rightParen], ?_, ?_⟩
  · intro t ht
    rcases List.mem_append.mp ht with ht | ht
    · exact hclosers t ht
    · rw [List.mem_singleton.mp ht]
      rfl
  · have hgrouping := hreading.grouping hopening (show Token.rightParen.kind = _ from rfl)
    simpa using hgrouping

lemma closable_binary (hop : op.kind.level? = some level)
    (hleft : Reading level.rank nesting left front) (h : Closable (level.rank + 1) nesting ts) :
    Closable level.rank nesting (front ++ [op] ++ ts) := by
  obtain ⟨e, closers, hclosers, hreading⟩ := h
  exact ⟨.binary left op e, closers, hclosers, by simpa using hleft.binary hop hreading⟩

/-- An operand, and so a literal, may stand where none has been read yet. -/
lemma explains_nil : Reason.expectedExpression.Explains operandRank nesting [] :=
  ⟨⟨.keyword .nil, [], .start⟩, closable_literal rfl⟩

lemma opener_of_isUnary (h : t.kind.isUnary) : t.kind ∈ openers :=
  List.mem_cons_of_mem _ (Kind.isUnary_iff.mp h)

lemma explains_opener (h : t.kind ∈ openers) :
    Reason.tooDeeplyNested.Explains operandRank nesting [t] :=
  ⟨[], t, ⟨.keyword .nil, [], .start⟩, rfl, h, closable_literal rfl⟩

/-! ### The operators of a level -/

lemma extend_cons_error (hop : op.kind.level? = some level) (h : rule.read rest = .error failure) :
    extend level rule left (op :: rest) = .error failure := by
  rw [extend, if_pos hop]
  split
  next failure' hfailure =>
    rw [h] at hfailure
    cases hfailure
    rfl
  next hread =>
    rw [h] at hread
    cases hread

lemma extend_diagnosed (hrule : rule.Decides (level.rank + 1) nesting)
    (hleft : Reading level.rank nesting left front)
    (h : extend level rule left ts = .error failure) :
    ∃ middle, middle ≠ [] ∧ ts = middle ++ failure.rest ∧
      failure.reason.RaisedAt failure.rest ∧
      failure.reason.Explains level.rank nesting (front ++ middle) ∧
      ∀ rest, failure.reason.RaisedAt rest →
        extend level rule left (middle ++ rest) = .error ⟨failure.reason, rest⟩ := by
  fun_induction extend level rule left ts generalizing front with
  | case1 => cases h
  | case2 left op ts hop failure' hfailure =>
    cases h
    obtain ⟨inner, rfl, hraised, hexplains, hfails⟩ := hrule.diagnosed hfailure
    refine ⟨op :: inner, List.cons_ne_nil _ _, rfl, hraised, ?_, ?_⟩
    · simpa using hexplains.prepend fun _ => closable_binary hop hleft
    · intro rest hrest
      exact extend_cons_error hop (hfails rest hrest)
  | case3 left op ts hop right behind hright ih =>
    obtain ⟨inner, rfl, hinner, hbehind⟩ := hrule.sound hright
    obtain ⟨middle, hne, rfl, hraised, hexplains, hfails⟩ := ih (hleft.binary hop hinner) h
    refine ⟨op :: inner ++ middle, by simp, by simp, hraised, by simpa using hexplains, ?_⟩
    intro rest hrest
    -- The right operand is read as before: the operator behind it still stands there.
    have hagain := hrule.complete hinner (hbehind.append_right hne rest)
    rw [List.append_assoc, List.cons_append, extend_cons hop hagain]
    exact hfails rest hrest
  | case4 => cases h

lemma chain_decides (hrule : rule.Decides (level.rank + 1) nesting) :
    (chain level rule).Decides level.rank nesting where
  toExact := chain_exact hrule.toExact
  diagnosed {ts failure} h := by
    simp only [chain] at h
    split at h
    next failure' hfailure =>
      cases h
      rw [← List.nil_append ts]
      apply (hrule.diagnosed hfailure).prepend
      · intro ts hts
        exact closable_of_le (Nat.le_succ _) hts
      · intro ts failure hread
        simp only [chain, List.nil_append, hread]
    next first behind hfirst =>
      obtain ⟨front, rfl, hfront, hbehind⟩ := hrule.sound hfirst
      obtain ⟨middle, hne, rfl, hraised, hexplains, hfails⟩ :=
        extend_diagnosed hrule (hfront.of_le (Nat.le_succ _)) h
      refine ⟨front ++ middle, by simp, hraised, hexplains, ?_⟩
      intro rest hrest
      have hagain := hrule.complete hfront (hbehind.append_right hne rest)
      simp only [chain, List.append_assoc, hagain]
      exact hfails rest hrest

lemma expressionOver_decides (hrule : rule.Decides operandRank nesting) :
    (expressionOver rule).Decides 0 nesting := by
  have hproduct : (chain .product rule).Decides Level.product.rank nesting := chain_decides hrule
  have hsum : (chain .sum _).Decides Level.sum.rank nesting := chain_decides hproduct
  have hcomparison : (chain .comparison _).Decides Level.comparison.rank nesting :=
    chain_decides hsum
  have hequality : (chain .equality _).Decides Level.equality.rank nesting :=
    chain_decides hcomparison
  exact hequality

/-! ### Operands -/

lemma readOperand_expectedExpression {inner? : Option Rule}
    (h : Reason.expectedExpression.RaisedAt ts) :
    readOperand inner? ts = .error ⟨.expectedExpression, ts⟩ := by
  match ts with
  | [] => rfl
  | t :: ts =>
    obtain ⟨hliteral, hunary, hopening⟩ := h t rfl
    simp only [readOperand, if_neg hliteral, if_neg hunary, if_neg hopening]

lemma raisedAt_cons (hliteral : ¬ t.kind.isLiteral) (hunary : ¬ t.kind.isUnary)
    (hopening : t.kind ≠ .symbol .leftParen) : Reason.expectedExpression.RaisedAt (t :: ts) := by
  intro t' ht'
  cases ht'
  exact ⟨hliteral, hunary, hopening⟩

/-- Tokens that start no operand explain that there is none. -/
lemma diagnosed_expectedExpression {inner? : Option Rule}
    (h : Reason.expectedExpression.RaisedAt ts) :
    Diagnosed (readOperand inner?) operandRank nesting ts ⟨.expectedExpression, ts⟩ :=
  ⟨[], rfl, h, explains_nil, fun _ => readOperand_expectedExpression⟩

lemma readOperand_none_diagnosed (h : readOperand none ts = .error failure) :
    Diagnosed (readOperand none) operandRank nesting ts failure := by
  match ts with
  | [] =>
    cases h
    exact diagnosed_expectedExpression (by simp [Reason.RaisedAt])
  | t :: ts =>
    simp only [readOperand] at h
    split_ifs at h with hliteral hunary hopening
    · cases h
      refine ⟨[t], rfl, trivial, explains_opener (opener_of_isUnary hunary), fun rest _ => ?_⟩
      simp only [List.singleton_append, readOperand, if_neg hliteral, if_pos hunary]
    · cases h
      refine ⟨[t], rfl, trivial, explains_opener (by simp [openers, hopening]), fun rest _ => ?_⟩
      simp only [List.singleton_append, readOperand, if_neg hliteral, if_neg hunary,
        if_pos hopening]
    · cases h
      exact diagnosed_expectedExpression (raisedAt_cons hliteral hunary hopening)

lemma close_expectedRightParen (h : Reason.expectedRightParen.RaisedAt ts) :
    close (e, ts) = .error ⟨.expectedRightParen, ts⟩ := by
  match ts with
  | [] => rfl
  | t :: ts => rw [close, if_neg (h.2 t rfl)]

lemma close_error (h : close (e, ts) = .error failure) :
    failure = ⟨.expectedRightParen, ts⟩ ∧ ∀ t ∈ ts.head?, t.kind ≠ .symbol .rightParen := by
  match ts with
  | [] =>
    cases h
    exact ⟨rfl, by simp⟩
  | t :: ts =>
    rw [close] at h
    split_ifs at h with hclosing
    cases h
    refine ⟨rfl, fun t' ht' => ?_⟩
    cases ht'
    exact hclosing

/-- Behind the inside of a grouping nothing but its closing parenthesis is missing. -/
lemma diagnosed_expectedRightParen (hrule : rule.Decides operandRank nesting)
    (ht : t.kind = .symbol .leftParen) (hfront : Reading 0 nesting e front)
    (h : Reason.expectedRightParen.RaisedAt rest) :
    Diagnosed (readOperand (some rule)) operandRank (nesting + 1) (t :: (front ++ rest))
      ⟨.expectedRightParen, rest⟩ := by
  refine ⟨t :: front, rfl, h, ⟨.rightParen, rfl, .grouping e, [], by simp [Closers], ?_⟩, ?_⟩
  · have hgrouping := hfront.grouping ht (show Token.rightParen.kind = _ from rfl)
    simpa using hgrouping
  · intro rest hrest
    have hread := (expressionOver_decides hrule).complete hfront hrest.1
    rw [List.cons_append, readOperand_grouping ht, hread]
    exact close_expectedRightParen hrest

lemma readOperand_some_diagnosed (hrule : rule.Decides operandRank nesting)
    (h : readOperand (some rule) ts = .error failure) :
    Diagnosed (readOperand (some rule)) operandRank (nesting + 1) ts failure := by
  match ts with
  | [] =>
    cases h
    exact diagnosed_expectedExpression (by simp [Reason.RaisedAt])
  | t :: ts =>
    simp only [readOperand] at h
    split_ifs at h with hliteral hunary hopening
    · cases hread : rule.read ts with
      | ok reading => rw [hread] at h; cases h
      | error failure' =>
        rw [hread] at h
        cases h
        rw [← List.singleton_append]
        apply (hrule.diagnosed hread).prepend
        · intro ts hts
          exact closable_unary hunary hts
        · intro ts failure hread
          rw [List.singleton_append, readOperand_unary hunary, hread]
          rfl
    · have hexpression := expressionOver_decides hrule
      cases hread : (expressionOver rule).read ts with
      | error failure' =>
        rw [hread] at h
        cases h
        rw [← List.singleton_append]
        apply (hexpression.diagnosed hread).prepend
        · intro ts hts
          exact closable_grouping hopening hts
        · intro ts failure hread
          rw [List.singleton_append, readOperand_grouping hopening, hread]
          rfl
      | ok reading =>
        obtain ⟨inner, behind⟩ := reading
        rw [hread] at h
        obtain ⟨front, rfl, hfront, hbehind⟩ := hexpression.sound hread
        obtain ⟨rfl, hclosing⟩ := close_error h
        exact diagnosed_expectedRightParen hrule hopening hfront ⟨hbehind, hclosing⟩
    · cases h
      exact diagnosed_expectedExpression (raisedAt_cons hliteral hunary hopening)

lemma operand_decides (nesting : Nat) : (operand nesting).Decides operandRank nesting := by
  induction nesting with
  | zero => exact ⟨operand_exact 0, readOperand_none_diagnosed⟩
  | succ nesting ih => exact ⟨operand_exact (nesting + 1), readOperand_some_diagnosed ih⟩

/-- An expression is read exactly, and its failures are diagnosed. -/
theorem expression_decides (nesting : Nat) : (expression nesting).Decides 0 nesting :=
  expressionOver_decides (operand_decides nesting)

end Parse

end LoxReader
