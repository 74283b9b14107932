import LoxReader.Expr.Printing
import LoxReader.Proofs.Grammar.Tree

/-!
# Trees of one shape

The grammar looks at the shape of a tree and at the kinds of its tokens, and the texts of a tree
show its shape and the lexemes of its tokens.
-/

namespace LoxReader

/-- The trees have one shape, and the tokens at their nodes are related. -/
inductive Expr.Alike (R : Token → Token → Prop) : Expr → Expr → Prop where
  | literal {t u : Token} (h : R t u) : Alike R (.literal t) (.literal u)
  | grouping {d e : Expr} (h : Alike R d e) : Alike R (.grouping d) (.grouping e)
  | unary {op op' : Token} {d e : Expr} (hop : R op op') (h : Alike R d e) :
      Alike R (.unary op d) (.unary op' e)
  | binary {op op' : Token} {d d' e e' : Expr} (hop : R op op') (hl : Alike R d e)
      (hr : Alike R d' e') : Alike R (.binary d op d') (.binary e op' e')

namespace Expr.Alike

variable {R : Token → Token → Prop} {d e : Expr}

/-! ### What the grammar looks at -/

lemma rank_eq (hR : ∀ t u, R t u → t.kind = u.kind) (h : d.Alike R e) : d.rank = e.rank := by
  cases h with
  | literal | grouping | unary => rfl
  | binary hop => simp only [rank, hR _ _ hop]

lemma nesting_eq (h : d.Alike R e) : d.nesting = e.nesting := by
  induction h with
  | literal => rfl
  | grouping _ ih | unary _ _ ih => simp only [nesting, ih]
  | binary _ _ _ ihl ihr => simp only [nesting, ihl, ihr]

lemma stratified_iff (hR : ∀ t u, R t u → t.kind = u.kind) (h : d.Alike R e) :
    d.Stratified ↔ e.Stratified := by
  induction h with
  | literal ht => simp only [Stratified, hR _ _ ht]
  | grouping _ ih => exact ih
  | unary hop h ih => simp only [Stratified, hR _ _ hop, h.rank_eq hR, ih]
  | binary hop hl hr ihl ihr =>
    simp only [Stratified, hR _ _ hop, hl.rank_eq hR, hr.rank_eq hR, ihl, ihr]

/-! ### What the texts look at -/

section

variable (hR : ∀ t u, R t u → t.lexeme = u.lexeme)

include hR

lemma bracketed_eq (h : d.Alike R e) : d.bracketed = e.bracketed := by
  induction h with
  | literal ht => simp [hR _ _ ht]
  | grouping _ ih => simp [ih]
  | unary hop _ ih => simp [hR _ _ hop, ih]
  | binary hop _ _ ihl ihr => simp [hR _ _ hop, ihl, ihr]

lemma source_eq (h : d.Alike R e) : d.source = e.source := by
  induction h with
  | literal ht => simp [hR _ _ ht]
  | grouping _ ih => simp [ih]
  | unary hop _ ih => simp [hR _ _ hop, ih]
  | binary hop _ _ ihl ihr => simp [hR _ _ hop, ihl, ihr]

end

end Expr.Alike

end LoxReader
