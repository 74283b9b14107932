import LoxReader.Proofs.Grammar.Alike
import LoxReader.Proofs.Grammar.Diagnosis
import Mathlib.Data.List.Forall2

/-!
# Reading looks at kinds

What a rule does depends on the kinds of the tokens in front of it. So two sequences of tokens of
the same kinds are read in step: into trees of one shape with the same number of tokens behind, or
up to the same token, where both fail for one reason.
-/

namespace LoxReader

namespace Parse

/-- Two readings end in step: with trees of one shape or for one reason, and with related tokens
left. -/
inductive InStep (R : Token → Token → Prop) :
    Except Failure (Expr × List Token) → Except Failure (Expr × List Token) → Prop where
  | ok {d e : Expr} {ts us : List Token} (halike : d.Alike R e) (hrest : List.Forall₂ R ts us) :
      InStep R (.ok (d, ts)) (.ok (e, us))
  | error {reason : Reason} {ts us : List Token} (hrest : List.Forall₂ R ts us) :
      InStep R (.error ⟨reason, ts⟩) (.error ⟨reason, us⟩)

/-- The rule reads related tokens in step. -/
def Rule.Respects (rule : Rule) (R : Token → Token → Prop) : Prop :=
  ∀ ⦃ts us⦄, List.Forall₂ R ts us → InStep R (rule.read ts) (rule.read us)

variable {R : Token → Token → Prop} {level : Level} {rule : Rule} {left left' : Expr}
  {ts us : List Token} {t u : Token} {x y : Except Failure (Expr × List Token)}

section

variable (hR : ∀ t u, R t u → t.kind = u.kind)

include hR

/-! ### Binary operators -/

lemma extend_inStep (hrule : rule.Respects R) (hleft : left.Alike R left')
    (h : List.Forall₂ R ts us) :
    InStep R (extend level rule left ts) (extend level rule left' us) := by
  fun_induction extend level rule left ts generalizing left' us with
  | case1 left =>
    cases h
    rw [extend]
    exact .ok hleft .nil
  | case2 left op ts hop failure hfailure =>
    obtain ⟨op', us, hop', hrest, rfl⟩ := List.forall₂_cons_left_iff.mp h
    rw [hR _ _ hop'] at hop
    have hread := hrule hrest
    rw [hfailure] at hread
    generalize hfailure' : rule.read us = outcome at hread
    cases hread with
    | error hbehind =>
      rw [extend_cons_error hop hfailure']
      exact .error hbehind
  | case3 left op ts hop right behind hright ih =>
    obtain ⟨op', us, hop', hrest, rfl⟩ := List.forall₂_cons_left_iff.mp h
    rw [hR _ _ hop'] at hop
    have hread := hrule hrest
    rw [hright] at hread
    generalize hright' : rule.read us = outcome at hread
    cases hread with
    | ok halike hbehind =>
      rw [extend_cons hop hright']
      exact ih (.binary hop' hleft halike) hbehind
  | case4 left op ts hop =>
    obtain ⟨op', us, hop', hrest, rfl⟩ := List.forall₂_cons_left_iff.mp h
    rw [hR _ _ hop'] at hop
    rw [extend, if_neg hop]
    exact .ok hleft h

lemma chain_respects (hrule : rule.Respects R) : (chain level rule).Respects R := by
  intro ts us h
  have hread := hrule h
  simp only [chain]
  generalize rule.read ts = x at hread
  generalize rule.read us = y at hread
  cases hread with
  | ok halike hrest => exact extend_inStep hR hrule halike hrest
  | error hrest => exact .error hrest

lemma expressionOver_respects (hrule : rule.Respects R) : (expressionOver rule).Respects R :=
  chain_respects hR (chain_respects hR (chain_respects hR (chain_respects hR hrule)))

/-! ### Operands -/

lemma close_inStep {d e : Expr} (halike : d.Alike R e) (h : List.Forall₂ R ts us) :
    InStep R (close (d, ts)) (close (e, us)) := by
  cases h with
  | nil => exact .error .nil
  | cons ht hrest =>
    simp only [close, hR _ _ ht]
    split
    · exact .ok (.grouping halike) hrest
    · exact .error (.cons ht hrest)

lemma InStep.bind_close (h : InStep R x y) : InStep R (x.bind close) (y.bind close) := by
  cases h with
  | ok halike hrest => exact close_inStep hR halike hrest
  | error hrest => exact .error hrest

omit hR in
lemma InStep.map_unary (ht : R t u) (h : InStep R x y) :
    InStep R (x.map fun (e, behind) => (.unary t e, behind))
      (y.map fun (e, behind) => (.unary u e, behind)) := by
  cases h with
  | ok halike hrest => exact .ok (.unary ht halike) hrest
  | error hrest => exact .error hrest

lemma readOperand_inStep {inner? : Option Rule} (hinner : ∀ rule ∈ inner?, rule.Respects R)
    (h : List.Forall₂ R ts us) : InStep R (readOperand inner? ts) (readOperand inner? us) := by
  cases h with
  | nil => exact .error .nil
  | cons ht hrest =>
    simp only [readOperand, hR _ _ ht]
    split_ifs with hliteral hunary hopening
    · exact .ok (.literal ht) hrest
    · cases inner? with
      | none => exact .error hrest
      | some inner => exact (hinner inner rfl hrest).map_unary ht
    · cases inner? with
      | none => exact .error hrest
      | some inner => exact (expressionOver_respects hR (hinner inner rfl) hrest).bind_close hR
    · exact .error (.cons ht hrest)

lemma operand_respects (nesting : Nat) : (operand nesting).Respects R := by
  induction nesting with
  | zero =>
    have hnone : ∀ rule ∈ (none : Option Rule), rule.Respects R := by simp
    exact fun _ _ h => readOperand_inStep hR hnone h
  | succ nesting ih =>
    have hsome : ∀ rule ∈ some (operand nesting), rule.Respects R := by
      rintro rule ⟨⟩
      exact ih
    exact fun _ _ h => readOperand_inStep hR hsome h

lemma expression_respects (nesting : Nat) : (expression nesting).Respects R :=
  expressionOver_respects hR (operand_respects hR nesting)

end

/-! ### Whole sequences of tokens -/

/-- Failures with related tokens left lie at the same index. -/
lemma Failure.inside_inStep {tokens others : Tokens} {reason : Reason}
    (hbody : List.Forall₂ R tokens.body others.body) (heof : R tokens.eof others.eof)
    (h : List.Forall₂ R ts us) :
    (Failure.inside tokens ⟨reason, ts⟩).reason = (Failure.inside others ⟨reason, us⟩).reason ∧
    (Failure.inside tokens ⟨reason, ts⟩).index = (Failure.inside others ⟨reason, us⟩).index ∧
    R (Failure.inside tokens ⟨reason, ts⟩).token (Failure.inside others ⟨reason, us⟩).token := by
  refine ⟨rfl, ?_, ?_⟩
  · simp only [Failure.inside, hbody.length_eq, h.length_eq]
  · cases h with
    | nil => exact heof
    | cons ht => exact ht

end Parse

/-- Sequences of tokens of the same kinds are parsed in step: into trees of one shape, or with
errors for one reason at the same index. -/
theorem parse_inStep {R : Token → Token → Prop} (hR : ∀ t u, R t u → t.kind = u.kind)
    {tokens others : Tokens} (hbody : List.Forall₂ R tokens.body others.body)
    (heof : R tokens.eof others.eof) :
    (∃ d e, parse tokens = .ok d ∧ parse others = .ok e ∧ d.Alike R e) ∨
      ∃ a b, parse tokens = .error a ∧ parse others = .error b ∧ a.reason = b.reason ∧
        a.index = b.index ∧ R a.token b.token := by
  have hread := Parse.expression_respects hR maxNesting hbody
  simp only [parse]
  generalize (Parse.expression maxNesting).read tokens.body = x at hread
  generalize (Parse.expression maxNesting).read others.body = y at hread
  cases hread with
  | error hrest => exact .inr ⟨_, _, rfl, rfl, Parse.Failure.inside_inStep hbody heof hrest⟩
  | ok halike hrest =>
    cases hrest with
    | nil => exact .inl ⟨_, _, rfl, rfl, halike⟩
    | cons ht hrest =>
      exact .inr ⟨_, _, rfl, rfl, Parse.Failure.inside_inStep hbody heof (.cons ht hrest)⟩

end LoxReader
