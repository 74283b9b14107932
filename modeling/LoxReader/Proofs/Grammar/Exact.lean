import LoxReader.Expr.Parse
import LoxReader.Proofs.Grammar.Tree
import Mathlib.Tactic.SplitIfs

/-!
# Reading is exact

A rule reads a tree from the front of the tokens exactly when the grammar has this tree for them and
no operator that the rule would go on with stands behind. So the tokens of an expression have one
tree, and this is the one that is read.
-/

namespace LoxReader

namespace Parse

/-- Behind these tokens no tree of rank `rank` goes on: they start with no operator that binds at
least as tightly. -/
def NoOperator (rank : Nat) (ts : List Token) : Prop :=
  ∀ t ∈ ts.head?, ∀ level ∈ t.kind.level?, level.rank < rank

/-- The rule reads the trees of rank `rank` with at most `nesting` openers around one another, and
each of them as far as it goes. -/
structure Rule.Exact (rule : Rule) (rank nesting : Nat) : Prop where
  sound {ts : List Token} {e : Expr} {rest : List Token} :
    rule.read ts = .ok (e, rest) →
      ∃ front, ts = front ++ rest ∧ Reading rank nesting e front ∧ NoOperator rank rest
  complete {front : List Token} {e : Expr} {rest : List Token} :
    Reading rank nesting e front → NoOperator rank rest →
      rule.read (front ++ rest) = .ok (e, rest)

variable {rank nesting : Nat} {level : Level} {rule : Rule} {e left : Expr} {op : Token}
  {ts front rest : List Token}

/-! ### What stands behind a tree -/

lemma NoOperator.nil : NoOperator rank [] := by
  intro t ht
  cases ht

lemma noOperator_operandRank (ts : List Token) : NoOperator operandRank ts :=
  fun _ _ level _ => level.rank_lt

lemma NoOperator.of_le {tighter : Nat} (h : NoOperator rank ts) (hle : rank ≤ tighter) :
    NoOperator tighter ts :=
  fun t ht level hlevel => Nat.lt_of_lt_of_le (h t ht level hlevel) hle

lemma noOperator_cons (hop : op.kind.level? = some level) :
    NoOperator (level.rank + 1) (op :: ts) := by
  intro t ht level' hlevel'
  cases ht
  rw [hop] at hlevel'
  cases hlevel'
  exact Nat.lt_succ_self _

/-- Only the first of the tokens behind a tree counts. -/
lemma NoOperator.append_right (h : NoOperator rank (front ++ rest)) (hne : front ≠ [])
    (rest' : List Token) : NoOperator rank (front ++ rest') := by
  cases front with
  | nil => exact absurd rfl hne
  | cons t front => exact h

/-! ### The operators of a level -/

lemma extend_of_level?_ne (h : ∀ t ∈ ts.head?, t.kind.level? ≠ some level) :
    extend level rule left ts = .ok (left, ts) := by
  match ts with
  | [] => rw [extend]
  | op :: rest => rw [extend, if_neg (h op rfl)]

lemma extend_of_noOperator (h : NoOperator level.rank ts) :
    extend level rule left ts = .ok (left, ts) :=
  extend_of_level?_ne fun op hop hlevel => Nat.lt_irrefl _ (h op hop level hlevel)

lemma extend_cons {behind : List Token} {right : Expr} (hop : op.kind.level? = some level)
    (h : rule.read rest = .ok (right, behind)) :
    extend level rule left (op :: rest) = extend level rule (.binary left op right) behind := by
  rw [extend, if_pos hop]
  split
  next failure hfailure =>
    rw [h] at hfailure
    cases hfailure
  next right' behind' hread =>
    rw [h] at hread
    cases hread
    rfl

/-- The loop over the operators of a level takes up the tree it is given and stops in front of a
looser operator. -/
lemma extend_sound (hrule : rule.Exact (level.rank + 1) nesting)
    (hleft : Reading level.rank nesting left front) (hts : NoOperator (level.rank + 1) ts)
    (h : extend level rule left ts = .ok (e, rest)) :
    ∃ middle, ts = middle ++ rest ∧ Reading level.rank nesting e (front ++ middle) ∧
      NoOperator level.rank rest := by
  fun_induction extend level rule left ts generalizing front with
  | case1 left =>
    cases h
    exact ⟨[], rfl, by simpa using hleft, .nil⟩
  | case2 => cases h
  | case3 left op ts hop right behind hright ih =>
    obtain ⟨inner, rfl, hinner, hbehind⟩ := hrule.sound hright
    obtain ⟨middle, rfl, hreading, hrest⟩ := ih (.binary hop hleft hinner) hbehind h
    exact ⟨op :: inner ++ middle, by simp, by simpa using hreading, hrest⟩
  | case4 left op ts hop =>
    cases h
    refine ⟨[], rfl, by simpa using hleft, ?_⟩
    intro t ht level' hlevel'
    cases ht
    have hne : level'.rank ≠ level.rank := by
      intro heq
      rw [Level.rank_injective heq] at hlevel'
      exact hop hlevel'
    have hlt := hts op rfl level' hlevel'
    omega

/-- In front of tokens that do not extend its last operand, a chain takes up a whole tree of its
level and goes on with the operators behind. -/
lemma chain_read_append (hrule : rule.Exact (level.rank + 1) nesting)
    (h : Reading level.rank nesting e front) (hrest : NoOperator (level.rank + 1) rest) :
    (chain level rule).read (front ++ rest) = extend level rule e rest := by
  -- Only the tree to the left of an operator of this very level is read by the chain itself.
  have hoperand {e : Expr} {front rest : List Token} (h : Reading level.rank nesting e front)
      (hlt : level.rank < e.rank) (hrest : NoOperator (level.rank + 1) rest) :
      (chain level rule).read (front ++ rest) = extend level rule e rest := by
    have hread := hrule.complete ⟨h.spells, h.stratified, hlt, h.nesting_le⟩ hrest
    simp only [chain, hread]
  induction e generalizing front rest with
  | literal | grouping | unary => exact hoperand h level.rank_lt hrest
  | binary l op r ihl ihr =>
    rcases Nat.lt_or_eq_of_le h.rank_le with hlt | heq
    · exact hoperand h hlt hrest
    · obtain ⟨hop, ls, rs, rfl, hl, hr⟩ := h.binary_inv heq.symm
      rw [List.append_assoc, List.cons_append, ihl hl (noOperator_cons hop)]
      exact extend_cons hop (hrule.complete hr hrest)

lemma chain_exact (hrule : rule.Exact (level.rank + 1) nesting) :
    (chain level rule).Exact level.rank nesting where
  sound {ts e rest} h := by
    simp only [chain] at h
    split at h
    · cases h
    next first behind hfirst =>
      obtain ⟨front, rfl, hfront, hbehind⟩ := hrule.sound hfirst
      obtain ⟨middle, rfl, hreading, hrest⟩ :=
        extend_sound hrule (hfront.of_le (Nat.le_succ _)) hbehind h
      exact ⟨front ++ middle, by simp, hreading, hrest⟩
  complete h hrest := by
    rw [chain_read_append hrule h (hrest.of_le (Nat.le_succ _))]
    exact extend_of_noOperator hrest

/-- The rule for the operators of a level, with the operands of the tightest level. -/
def ofLevel (operand : Rule) : Level → Rule
  | .equality   => expressionOver operand
  | .comparison => chain .comparison (chain .sum (chain .product operand))
  | .sum        => chain .sum (chain .product operand)
  | .product    => chain .product operand

lemma ofLevel_exact (hrule : rule.Exact operandRank nesting) (level : Level) :
    (ofLevel rule level).Exact level.rank nesting := by
  have hproduct : (ofLevel rule .product).Exact Level.product.rank nesting := chain_exact hrule
  have hsum : (ofLevel rule .sum).Exact Level.sum.rank nesting := chain_exact hproduct
  have hcomparison : (ofLevel rule .comparison).Exact Level.comparison.rank nesting :=
    chain_exact hsum
  have hequality : (ofLevel rule .equality).Exact Level.equality.rank nesting :=
    chain_exact hcomparison
  cases level with
  | equality => exact hequality
  | comparison => exact hcomparison
  | sum => exact hsum
  | product => exact hproduct

lemma expressionOver_exact (hrule : rule.Exact operandRank nesting) :
    (expressionOver rule).Exact 0 nesting :=
  ofLevel_exact hrule .equality

/-! ### Operands -/

lemma close_sound {inner : Expr} (h : close (inner, ts) = .ok (e, rest)) :
    ∃ closing, closing.kind = .symbol .rightParen ∧ ts = closing :: rest ∧ e = .grouping inner := by
  match ts with
  | [] => cases h
  | t :: ts =>
    simp only [close] at h
    split at h
    next hclosing =>
      cases h
      exact ⟨t, hclosing, rfl, rfl⟩
    next => cases h

lemma readOperand_none_sound (h : readOperand none ts = .ok (e, rest)) :
    ∃ front, ts = front ++ rest ∧ Reading operandRank nesting e front := by
  match ts with
  | [] => cases h
  | t :: ts =>
    simp only [readOperand] at h
    split_ifs at h with hliteral hunary hopening
    cases h
    exact ⟨[t], rfl, .literal hliteral⟩

lemma readOperand_some_sound (hrule : rule.Exact operandRank nesting)
    (h : readOperand (some rule) ts = .ok (e, rest)) :
    ∃ front, ts = front ++ rest ∧ Reading operandRank (nesting + 1) e front := by
  match ts with
  | [] => cases h
  | t :: ts =>
    simp only [readOperand] at h
    split_ifs at h with hliteral hunary hopening
    · cases h
      exact ⟨[t], rfl, .literal hliteral⟩
    · cases hread : rule.read ts with
      | error failure => rw [hread] at h; cases h
      | ok reading =>
        rw [hread] at h
        cases h
        obtain ⟨front, rfl, hfront, -⟩ := hrule.sound hread
        exact ⟨t :: front, rfl, .unary hunary hfront⟩
    · cases hread : (expressionOver rule).read ts with
      | error failure => rw [hread] at h; cases h
      | ok reading =>
        obtain ⟨inner, behind⟩ := reading
        rw [hread] at h
        obtain ⟨front, rfl, hfront, -⟩ := (expressionOver_exact hrule).sound hread
        obtain ⟨closing, hclosing, rfl, rfl⟩ := close_sound h
        exact ⟨t :: front ++ [closing], by simp, .grouping hopening hclosing hfront⟩

lemma readOperand_literal {inner? : Option Rule} {t : Token} (h : t.kind.isLiteral) :
    readOperand inner? (t :: rest) = .ok (.literal t, rest) := by
  simp only [readOperand, if_pos h]

lemma not_isLiteral_of_isUnary (hop : op.kind.isUnary) : ¬ op.kind.isLiteral := by
  intro h
  cases hkind : op.kind <;> simp_all [Kind.isUnary, Kind.isLiteral]

lemma readOperand_unary (hop : op.kind.isUnary) :
    readOperand (some rule) (op :: ts)
      = (rule.read ts).map fun (e, behind) => (.unary op e, behind) := by
  simp only [readOperand, if_neg (not_isLiteral_of_isUnary hop), if_pos hop]

lemma readOperand_grouping {opening : Token} (hopening : opening.kind = .symbol .leftParen) :
    readOperand (some rule) (opening :: ts) = ((expressionOver rule).read ts).bind close := by
  simp [readOperand, hopening, Kind.isLiteral, Kind.isUnary]

lemma readOperand_none_complete (h : Reading operandRank 0 e front) :
    readOperand none (front ++ rest) = .ok (e, rest) := by
  match e with
  | .literal t =>
    obtain ⟨hliteral, rfl⟩ := h.literal_inv
    exact readOperand_literal hliteral
  | .grouping e | .unary op e => exact absurd h.nesting_le (Nat.not_succ_le_zero _)
  | .binary l op r => exact absurd h Reading.not_binary

lemma readOperand_some_complete (hrule : rule.Exact operandRank nesting)
    (h : Reading operandRank (nesting + 1) e front) :
    readOperand (some rule) (front ++ rest) = .ok (e, rest) := by
  match e with
  | .literal t =>
    obtain ⟨hliteral, rfl⟩ := h.literal_inv
    exact readOperand_literal hliteral
  | .unary op e =>
    obtain ⟨hop, ts, rfl, hreading⟩ := h.unary_inv
    rw [List.cons_append, readOperand_unary hop,
      hrule.complete hreading (noOperator_operandRank rest)]
    rfl
  | .grouping e =>
    obtain ⟨opening, closing, ts, hopening, hclosing, rfl, hreading⟩ := h.grouping_inv
    have hrest : NoOperator 0 (closing :: rest) := by
      intro t ht level hlevel
      cases ht
      rw [hclosing] at hlevel
      cases hlevel
    rw [List.cons_append, List.cons_append, List.append_assoc, readOperand_grouping hopening,
      List.singleton_append, (expressionOver_exact hrule).complete hreading hrest]
    simp [Except.bind, close, hclosing]
  | .binary l op r => exact absurd h Reading.not_binary

lemma operand_exact (nesting : Nat) : (operand nesting).Exact operandRank nesting := by
  induction nesting with
  | zero =>
    refine ⟨fun h => ?_, fun h _ => readOperand_none_complete h⟩
    obtain ⟨front, hts, hreading⟩ := readOperand_none_sound h
    exact ⟨front, hts, hreading, noOperator_operandRank _⟩
  | succ nesting ih =>
    refine ⟨fun h => ?_, fun h _ => readOperand_some_complete ih h⟩
    obtain ⟨front, hts, hreading⟩ := readOperand_some_sound ih h
    exact ⟨front, hts, hreading, noOperator_operandRank _⟩

/-- An expression is read exactly. -/
theorem expression_exact (nesting : Nat) : (expression nesting).Exact 0 nesting :=
  expressionOver_exact (operand_exact nesting)

end Parse

/-! ### Whole sequences of tokens -/

lemma Reading.read {nesting : Nat} {e : Expr} {ts : List Token} (h : Reading 0 nesting e ts) :
    (Parse.expression nesting).read ts = .ok (e, []) := by
  simpa using (Parse.expression_exact nesting).complete h Parse.NoOperator.nil

/-- The grammar is unambiguous: no two of its trees spell the same tokens. -/
theorem Reading.unique {nesting : Nat} {d e : Expr} {ts : List Token} (hd : Reading 0 nesting d ts)
    (he : Reading 0 nesting e ts) : d = e := by
  have h := hd.read.symm.trans he.read
  cases h
  rfl

lemma parse_eq_ok {tokens : Tokens} {e : Expr} (h : Reading 0 maxNesting e tokens.body) :
    parse tokens = .ok e := by
  simp only [parse, h.read]

lemma reading_of_parse {tokens : Tokens} {e : Expr} (h : parse tokens = .ok e) :
    Reading 0 maxNesting e tokens.body := by
  simp only [parse] at h
  split at h
  · cases h
  next hread =>
    cases h
    obtain ⟨front, hbody, hreading, -⟩ := (Parse.expression_exact maxNesting).sound hread
    simpa [hbody] using hreading
  · cases h

/-- A sequence of tokens is parsed into a tree exactly when the tree spells these tokens, its
operators are ordered by their levels, and it nests no deeper than allowed. -/
theorem parse_eq_ok_iff (tokens : Tokens) (e : Expr) :
    parse tokens = .ok e ↔ e.Spells tokens.body ∧ e.Stratified ∧ e.nesting ≤ maxNesting := by
  constructor
  · intro h
    have hreading := reading_of_parse h
    exact ⟨hreading.spells, hreading.stratified, hreading.nesting_le⟩
  · rintro ⟨hspells, hstratified, hnesting⟩
    exact parse_eq_ok ⟨hspells, hstratified, Nat.zero_le _, hnesting⟩

end LoxReader
