import LoxReader.Proofs.Grammar.Diagnosis
import LoxReader.Proofs.Safety.Parser

/-!
# Reading with guards

In front of the tokens that are left a guarded rule does what the rule of the grammar does with
them, as soon as the rules that it calls do: it ends with the same tree or error, its index is that
of the first token left, and as many openers lie around it as before.
-/

namespace LoxReader

namespace Parse

variable {level : Level} {rule : Rule} {left : Expr} {op : Token} {ts : List Token}

/-- Behind an operator of its level a chain goes on with the operand that stands there. -/
lemma extend_cons_bind (hop : op.kind.level? = some level) :
    extend level rule left (op :: ts)
      = (rule.read ts).bind fun p => extend level rule (.binary left op p.1) p.2 := by
  cases hread : rule.read ts with
  | error failure => rw [extend_cons_error hop hread]; rfl
  | ok reading => rw [extend_cons hop hread]; rfl

/-- Reading what a unary operator or a grouping encloses, unless it lies too deep. -/
def readEnclosed (inner? : Option Rule) (ts : List Token) :
    Except Failure (Expr × List Token) :=
  match inner? with
  | none       => .error ⟨.tooDeeplyNested, ts⟩
  | some inner => inner.read ts

lemma readOperand_of_isUnary {inner? : Option Rule} (hop : op.kind.isUnary) :
    readOperand inner? (op :: ts)
      = (readEnclosed inner? ts).bind fun p => .ok (.unary op p.1, p.2) := by
  cases inner? with
  | none => simp only [readOperand, if_neg (not_isLiteral_of_isUnary hop), if_pos hop]; rfl
  | some inner =>
    rw [readOperand_unary hop, readEnclosed]
    cases inner.read ts <;> rfl

lemma readOperand_of_leftParen {inner? : Option Rule} (hop : op.kind = .symbol .leftParen) :
    readOperand inner? (op :: ts)
      = (readEnclosed (inner?.map expressionOver) ts).bind close := by
  cases inner? with
  | none => simp [readOperand, readEnclosed, hop, Kind.isLiteral, Kind.isUnary, Except.bind]
  | some inner => exact readOperand_grouping hop

/-- Reading a literal or a grouping: an operand that starts with no unary operator. -/
def readPrimary (inner? : Option Rule) (ts : List Token) : Except Failure (Expr × List Token) :=
  if ∀ t ∈ ts.head?, ¬ t.kind.isUnary then readOperand inner? ts
  else .error ⟨.expectedExpression, ts⟩

lemma readPrimary_eq {inner? : Option Rule} (h : ∀ t ∈ ts.head?, ¬ t.kind.isUnary) :
    readPrimary inner? ts = readOperand inner? ts :=
  if_pos h

lemma readPrimary_literal {inner? : Option Rule} (hop : op.kind.isLiteral) :
    readPrimary inner? (op :: ts) = .ok (.literal op, ts) := by
  rw [readPrimary_eq, readOperand_literal hop]
  rintro t ⟨⟩ hunary
  exact not_isLiteral_of_isUnary hunary hop

lemma readPrimary_grouping {inner? : Option Rule} (hop : op.kind = .symbol .leftParen) :
    readPrimary inner? (op :: ts) = (readEnclosed (inner?.map expressionOver) ts).bind close := by
  rw [readPrimary_eq, readOperand_of_leftParen hop]
  rintro t ⟨⟩
  simp [hop, Kind.isUnary]

lemma readPrimary_expectedExpression {inner? : Option Rule}
    (hliteral : ∀ t ∈ ts.head?, ¬ t.kind.isLiteral)
    (hopening : ∀ t ∈ ts.head?, t.kind ≠ .symbol .leftParen) :
    readPrimary inner? ts = .error ⟨.expectedExpression, ts⟩ := by
  rw [readPrimary]
  split_ifs with hnone
  · exact readOperand_expectedExpression fun t ht => ⟨hliteral t ht, hnone t ht, hopening t ht⟩
  · rfl

/-- What is read as a literal or a grouping is read as an operand. -/
lemma readOperand_of_readPrimary {inner? : Option Rule} {p : Expr × List Token}
    (h : readPrimary inner? ts = .ok p) : readOperand inner? ts = .ok p := by
  rw [readPrimary] at h
  split_ifs at h
  exact h

lemma chain_read (level : Level) (rule : Rule) (ts : List Token) :
    (chain level rule).read ts = (rule.read ts).bind fun p => extend level rule p.1 p.2 := by
  simp only [chain]
  cases rule.read ts <;> rfl

end Parse

namespace Guarded

namespace Parser

/-! ### Readings -/

/-- How a rule ends among the given tokens. -/
def result (tokens : Tokens) :
    Except Parse.Failure (Expr × List Token) → Except Parse.Error Expr
  | .ok (e, _)     => .ok e
  | .error failure => .error (failure.inside tokens)

/-- The tokens that a rule has left where it ends. -/
def remaining : Except Parse.Failure (Expr × List Token) → List Token
  | .ok (_, rest)  => rest
  | .error failure => failure.rest

/-- In front of the tokens `ts` the parser runs to where the reading ends, and ends like it. -/
structure RunsAs (tokens : Tokens) (depth : Nat) (ts : List Token) (x : Parser Expr)
    (reading : Except Parse.Failure (Expr × List Token)) : Prop where
  suffix : remaining reading <:+ ts
  runs : Runs x (facing tokens ts depth) (result tokens reading)
    (facing tokens (remaining reading) depth)

/-- At this depth the parser does what the rule does, wherever it starts. -/
def Follows (tokens : Tokens) (depth : Nat) (x : Parser Expr)
    (read : List Token → Except Parse.Failure (Expr × List Token)) : Prop :=
  ∀ ⦃ts⦄, ts <:+ tokens.body → RunsAs tokens depth ts x (read ts)

variable {tokens : Tokens} {ts rest : List Token} {depth turns : Nat} {level : Level}
  {x : Parser Expr} {rule : Parse.Rule} {inner? : Option Parse.Rule} {e left : Expr}
  {reading : Except Parse.Failure (Expr × List Token)}

lemma runsAs_ok (e : Expr) (ts : List Token) : RunsAs tokens depth ts (pure e) (.ok (e, ts)) :=
  ⟨List.suffix_rfl, runs_pure e _⟩

lemma runsAs_fail (h : ts <:+ tokens.body) (reason : Parse.Reason) :
    RunsAs tokens depth ts (fail tokens reason) (.error ⟨reason, ts⟩) :=
  ⟨List.suffix_rfl, runs_fail h reason⟩

/-- A step in front of a parser: it passes some of the tokens. -/
lemma Runs.before {α : Type} {y : Parser α} {a : α} {f : α → Parser Expr}
    (hy : Runs y (facing tokens ts depth) (.ok a) (facing tokens rest depth)) (hrest : rest <:+ ts)
    (h : RunsAs tokens depth rest (f a) reading) : RunsAs tokens depth ts (y >>= f) reading :=
  ⟨h.suffix.trans hrest, hy.bind h.runs⟩

/-- A parser that goes on where another one has ended. -/
lemma RunsAs.bind {f : Expr → Parser Expr}
    {next : Expr × List Token → Except Parse.Failure (Expr × List Token)}
    (h : RunsAs tokens depth ts x reading)
    (hnext : ∀ e rest, reading = .ok (e, rest) → rest <:+ ts →
      RunsAs tokens depth rest (f e) (next (e, rest))) :
    RunsAs tokens depth ts (x >>= f) (reading.bind next) := by
  cases reading with
  | error failure => exact ⟨h.suffix, h.runs.bind_error⟩
  | ok reading => exact h.runs.before h.suffix (hnext reading.1 reading.2 rfl h.suffix)

/-- A parser that looks for a token of some kind goes on behind it, or where it is if there is
none. -/
lemma runsAs_matchAny {f : Option Token → Parser Expr} {kinds : List Kind}
    (htokens : tokens.Terminated) (h : ts <:+ tokens.body)
    (hsome : ∀ t rest, ts = t :: rest → t.kind ∈ kinds → rest <:+ tokens.body →
      RunsAs tokens depth rest (f (some t)) reading)
    (hnone : (∀ t ∈ ts.head?, t.kind ∉ kinds) → RunsAs tokens depth ts (f none) reading) :
    RunsAs tokens depth ts (matchAny tokens kinds >>= f) reading := by
  by_cases hkind : ∃ t ∈ ts.head?, t.kind ∈ kinds
  · obtain ⟨t, ht, hkind⟩ := hkind
    obtain ⟨rest, rfl⟩ := List.head?_eq_some_iff.mp ht
    have hrest : rest <:+ tokens.body := (List.suffix_cons t rest).trans h
    exact (runs_matchAny htokens h hkind).before (List.suffix_cons t rest)
      (hsome t rest rfl hkind hrest)
  · have hno : ∀ t ∈ ts.head?, t.kind ∉ kinds := fun t ht hmem => hkind ⟨t, ht, hmem⟩
    exact (runs_matchAny_none htokens h hno).before List.suffix_rfl (hnone hno)

/-! ### Binary operators -/

lemma extend_runsAs (htokens : tokens.Terminated) (hrule : Follows tokens depth x rule.read)
    (h : ts <:+ tokens.body) (hturns : ts.length < turns) :
    RunsAs tokens depth ts (extend tokens level.operators x turns left)
      (Parse.extend level rule left ts) := by
  induction turns generalizing ts left with
  | zero => exact absurd hturns (Nat.not_lt_zero _)
  | succ turns ih =>
    refine runsAs_matchAny htokens h ?_ fun hnone => ?_
    · rintro op rest rfl hop hrest
      rw [Parse.extend_cons_bind (Kind.level?_eq_some_iff.mpr hop)]
      refine (hrule hrest).bind fun right behind hread hbehind => ?_
      have hlength := rule.length_of_read hread
      exact ih (hbehind.trans hrest) (Nat.lt_trans hlength (Nat.lt_of_succ_lt_succ hturns))
    · rw [Parse.extend_of_level?_ne fun t ht hop => hnone t ht (Kind.level?_eq_some_iff.mp hop)]
      exact runsAs_ok left ts

lemma chain_follows (htokens : tokens.Terminated) (hrule : Follows tokens depth x rule.read)
    (level : Level) :
    Follows tokens depth (chain tokens level x) (Parse.chain level rule).read := by
  intro ts h
  rw [Parse.chain_read]
  refine (hrule h).bind fun first rest hread hrest => ?_
  have hturns : rest.length < tokens.toList.length := by
    have hlength := h.length_le
    have hlt := rule.length_of_read hread
    simp only [Tokens.toList, List.length_append, List.length_singleton]
    omega
  exact extend_runsAs htokens hrule (hrest.trans h) hturns

/-! ### Operands -/

lemma close_runsAs (htokens : tokens.Terminated) (h : ts <:+ tokens.body) :
    RunsAs tokens depth ts
      (do let _ ← consume tokens (.symbol .rightParen) .expectedRightParen; return .grouping e)
      (Parse.close (e, ts)) := by
  cases ts with
  | nil =>
    exact ⟨List.suffix_rfl, (runs_consume_fail htokens h (by simp)).bind_error⟩
  | cons t ts =>
    rw [Parse.close]
    split_ifs with hclosing
    · exact (runs_consume htokens h hclosing).before (List.suffix_cons t ts) (runsAs_ok _ ts)
    · have hne : ∀ t' ∈ (t :: ts).head?, t'.kind ≠ .symbol .rightParen := by
        rintro t' ⟨⟩
        exact hclosing
      exact ⟨List.suffix_rfl, (runs_consume_fail htokens h hne).bind_error⟩

/-- What a unary operator or a grouping encloses is read as the rule reads it, or it lies too deep
for any rule. -/
def Encloses (tokens : Tokens) (depth : Nat) (x : Parser Expr) : Option Parse.Rule → Prop
  | some inner => depth < maxNesting ∧ Follows tokens (depth + 1) x inner.read
  | none       => maxNesting ≤ depth

lemma Encloses.nested (h : Encloses tokens depth x inner?)
    (hts : ts <:+ tokens.body) :
    RunsAs tokens depth ts (nested tokens x) (Parse.readEnclosed inner? ts) := by
  cases inner? with
  | none => exact ⟨List.suffix_rfl, runs_nested_fail hts h⟩
  | some inner => exact ⟨(h.2 hts).suffix, runs_nested h.1 (h.2 hts).runs⟩

lemma primary_body_follows (htokens : tokens.Terminated) (call : Nonterminal → Parser Expr)
    (hcall : Encloses tokens depth (call .expression) (inner?.map Parse.expressionOver)) :
    Follows tokens depth (Nonterminal.body tokens call .primary) (Parse.readPrimary inner?) := by
  intro ts hts
  refine runsAs_matchAny htokens hts ?_ fun hliteral => ?_
  · rintro t rest rfl hliteral -
    rw [Parse.readPrimary_literal (Kind.isLiteral_iff.mpr hliteral)]
    exact runsAs_ok _ rest
  refine runsAs_matchAny htokens hts ?_ fun hopening => ?_
  · rintro t rest rfl hopening hrest
    rw [Parse.readPrimary_grouping (List.mem_singleton.mp hopening)]
    exact (hcall.nested hrest).bind fun e behind _ hsuffix =>
      close_runsAs htokens (hsuffix.trans hrest)
  · rw [Parse.readPrimary_expectedExpression
      (fun t ht hkind => hliteral t ht (Kind.isLiteral_iff.mp hkind))
      (fun t ht hkind => hopening t ht (List.mem_singleton.mpr hkind))]
    exact runsAs_fail hts .expectedExpression

lemma unary_body_follows (htokens : tokens.Terminated) (call : Nonterminal → Parser Expr)
    (hcall : Encloses tokens depth (call .unary) inner?)
    (hprimary : Follows tokens depth (call .primary) (Parse.readPrimary inner?)) :
    Follows tokens depth (Nonterminal.body tokens call .unary) (Parse.readOperand inner?) := by
  intro ts hts
  refine runsAs_matchAny htokens hts ?_ fun hnone => ?_
  · rintro op rest rfl hop hrest
    rw [Parse.readOperand_of_isUnary (Kind.isUnary_iff.mpr hop)]
    exact (hcall.nested hrest).bind fun e behind _ _ => runsAs_ok _ behind
  · rw [← Parse.readPrimary_eq fun t ht hop => hnone t ht (Kind.isUnary_iff.mp hop)]
    exact hprimary hts

end Parser

end Guarded

end LoxReader
