import LoxReader.Proofs.Printing.RoundTrip
import Mathlib.Order.Bounds.Basic

/-!
# How deep a traversal goes

A traversal goes as deep as its tree is high. The limit of the nesting alone does not bound this:
operators of one level in a row are read by a loop, which puts one on top of the other. Together
with the longest such row it does, and the bound is attained.
-/

namespace LoxReader

namespace Expr

/-! ### Traversals -/

/-- What a traversal makes of a node, from what it has made of the trees below. -/
structure Visitor (α : Type) where
  literal : Token → α
  grouping : α → α
  unary : Token → α → α
  binary : α → Token → α → α

section

variable {α : Type} (v : Visitor α)

def accept : Expr → α
  | .literal t     => v.literal t
  | .grouping e    => v.grouping e.accept
  | .unary op e    => v.unary op e.accept
  | .binary l op r => v.binary l.accept op r.accept

/-- A traversal that stops without a result once more than `calls` visits are inside one another. -/
def acceptWithin : Nat → Expr → Option α
  | 0, _                      => none
  | _ + 1, .literal t         => some (v.literal t)
  | calls + 1, .grouping e    => do return v.grouping (← acceptWithin calls e)
  | calls + 1, .unary op e    => do return v.unary op (← acceptWithin calls e)
  | calls + 1, .binary l op r => do
    return v.binary (← acceptWithin calls l) op (← acceptWithin calls r)

end

/-- Writes a tree in brackets, the operator in front. -/
def Visitor.bracketed : Visitor Text where
  literal t := t.lexeme
  grouping e := groupingHead ++ e ++ [')']
  unary op e := '(' :: op.lexeme ++ ' ' :: e ++ [')']
  binary l op r := '(' :: op.lexeme ++ ' ' :: l ++ ' ' :: r ++ [')']

/-- Writes a tree as infix source. -/
def Visitor.source : Visitor Text where
  literal t := t.lexeme
  grouping e := '(' :: e ++ [')']
  unary op e := op.lexeme ++ e
  binary l op r := l ++ ' ' :: op.lexeme ++ ' ' :: r

/-- How many nodes a longest path from the root has. -/
def height : Expr → Nat
  | .literal _    => 1
  | .grouping e   => e.height + 1
  | .unary _ e    => e.height + 1
  | .binary l _ r => max l.height r.height + 1

lemma height_pos (e : Expr) : 0 < e.height := by
  cases e <;> exact Nat.succ_pos _

lemma accept_bracketed (e : Expr) : e.accept .bracketed = e.bracketed := by
  induction e with
  | literal t => rw [bracketed_literal]; rfl
  | grouping e ih => rw [bracketed_grouping, ← ih]; rfl
  | unary op e ih => rw [bracketed_unary, ← ih]; rfl
  | binary l op r ihl ihr => rw [bracketed_binary, ← ihl, ← ihr]; rfl

lemma accept_source (e : Expr) : e.accept .source = e.source := by
  induction e with
  | literal t => rw [source_literal]; rfl
  | grouping e ih => rw [source_grouping, ← ih]; rfl
  | unary op e ih => rw [source_unary, ← ih]; rfl
  | binary l op r ihl ihr => rw [source_binary, ← ihl, ← ihr]; rfl

/-- The height of a tree is the depth of its traversals. -/
theorem acceptWithin_eq {α : Type} (v : Visitor α) (calls : Nat) (e : Expr) :
    acceptWithin v calls e = if e.height ≤ calls then some (e.accept v) else none := by
  induction calls generalizing e with
  | zero => rw [if_neg (Nat.not_le_of_lt e.height_pos), acceptWithin]
  | succ calls ih =>
    cases e with
    | literal t => simp [acceptWithin, height, accept]
    | grouping e => by_cases h : e.height ≤ calls <;> simp [acceptWithin, height, accept, ih, h]
    | unary op e => by_cases h : e.height ≤ calls <;> simp [acceptWithin, height, accept, ih, h]
    | binary l op r =>
      by_cases hl : l.height ≤ calls <;> by_cases hr : r.height ≤ calls <;>
        simp [acceptWithin, height, accept, ih, hl, hr]

/-! ### Rows of operators -/

/-- The level of the operator at the root. -/
def level? : Expr → Option Level
  | .binary _ op _ => op.kind.level?
  | _              => none

/-- How many operators of one level stand in a row from the root down, each at the root of the left
operand of the one above. -/
def row : Expr → Nat
  | .binary l op _ => if l.level? = op.kind.level? then l.row + 1 else 1
  | _              => 0

/-- The length of the longest row of operators of one level. -/
def longestRow : Expr → Nat
  | .literal _     => 0
  | .grouping e    => e.longestRow
  | .unary _ e     => e.longestRow
  | .binary l op r => max (binary l op r).row (max l.longestRow r.longestRow)

lemma row_le_longestRow (e : Expr) : e.row ≤ e.longestRow := by
  cases e with
  | literal | grouping | unary => exact Nat.zero_le _
  | binary l op r => exact Nat.le_max_left _ _

lemma row_pos {l r : Expr} {op : Token} : 0 < (binary l op r).row := by
  rw [row]
  split_ifs <;> exact Nat.succ_pos _

namespace Stratified

variable {e : Expr} {level : Level} {k : Nat}

lemma level?_eq_some_iff (h : e.Stratified) : e.level? = some level ↔ e.rank = level.rank := by
  cases e with
  | literal | grouping | unary => exact iff_of_false nofun (Nat.ne_of_gt level.rank_lt)
  | binary l op r =>
    obtain ⟨level', hop, -⟩ := h
    have hop := Kind.level?_eq_some_iff.mpr hop
    rw [rank_binary hop, level?, hop, Option.some_inj]
    exact ⟨congrArg Level.rank, Level.rank_injective⟩

/-- Only a binary operator starts a row. -/
lemma rank_cases (h : e.Stratified) :
    e.row = 0 ∧ e.rank = operandRank ∨ ∃ level : Level, e.rank = level.rank := by
  cases e with
  | literal | grouping | unary => exact .inl ⟨rfl, rfl⟩
  | binary l op r =>
    obtain ⟨level, hop, -⟩ := h
    exact .inr ⟨level, rank_binary (Kind.level?_eq_some_iff.mpr hop)⟩

end Stratified

/-! ### The bound -/

/-- A tree that nests this deeply, has no longer row, and binds at least as tightly as `rank` is no
higher than this: on each level of the nesting stand the rows of the levels left, and an operand. -/
def ceiling (k nesting rank : Nat) : Nat := (4 * k + 1) * nesting + (operandRank - rank) * k + 1

variable {e l r : Expr} {k nesting nesting' rank rank' : Nat} {level : Level}

lemma ceiling_mono (hnesting : nesting ≤ nesting') (hrank : rank' ≤ rank) :
    ceiling k nesting rank ≤ ceiling k nesting' rank' := by
  have hrows := Nat.mul_le_mul_right k (Nat.sub_le_sub_left hrank operandRank)
  have hdeep := Nat.mul_le_mul_left (4 * k + 1) hnesting
  simp only [ceiling]
  omega

lemma ceiling_rank (k nesting : Nat) (level : Level) :
    ceiling k nesting level.rank = ceiling k nesting (level.rank + 1) + k := by
  cases level <;> simp only [ceiling, Level.rank, operandRank] <;> omega

lemma ceiling_opener (k nesting : Nat) :
    ceiling k (nesting + 1) operandRank = ceiling k nesting 0 + 1 := by
  simp only [ceiling, operandRank, Nat.mul_succ]
  omega

/-- Above the rows of tighter levels there is room for one on the level of the root. -/
lemma height_le_ceiling (h : e.Stratified) (hk : e.longestRow ≤ k)
    (hrow : e.height ≤ ceiling k e.nesting (e.rank + 1) + e.row) :
    e.height ≤ ceiling k e.nesting e.rank := by
  rcases h.rank_cases with ⟨hzero, hrank⟩ | ⟨level, hrank⟩
  · rw [hzero, hrank] at hrow
    rwa [hrank]
  · have hle := e.row_le_longestRow
    rw [hrank] at hrow ⊢
    rw [ceiling_rank]
    omega

lemma succ_height_le (h : e.height ≤ ceiling k e.nesting e.rank) :
    e.height + 1 ≤ ceiling k (e.nesting + 1) operandRank := by
  rw [ceiling_opener]
  exact Nat.succ_le_succ (h.trans (ceiling_mono (Nat.le_refl _) (Nat.zero_le _)))

/-- The row at the root is what a tree is higher than the ceiling of its operands. -/
lemma height_le_row (h : e.Stratified) (hk : e.longestRow ≤ k) :
    e.height ≤ ceiling k e.nesting (e.rank + 1) + e.row := by
  induction e with
  | literal t => exact Nat.le_add_left _ _
  | grouping e ih =>
    have hinner : e.Stratified := h
    exact succ_height_le (height_le_ceiling hinner hk (ih hinner hk))
  | unary op e ih =>
    obtain ⟨-, -, hinner⟩ := h
    exact succ_height_le (height_le_ceiling hinner hk (ih hinner hk))
  | binary l op r ihl ihr =>
    obtain ⟨level, hop, hl, hr, hsl, hsr⟩ := h
    have hop := Kind.level?_eq_some_iff.mpr hop
    obtain ⟨-, hkl, hkr⟩ : _ ∧ l.longestRow ≤ k ∧ r.longestRow ≤ k := by
      simpa only [longestRow, Nat.max_le] using hk
    have hpos : 0 < (binary l op r).row := row_pos
    have hright : r.height ≤ ceiling k (max l.nesting r.nesting) (level.rank + 1) :=
      (height_le_ceiling hsr hkr (ihr hsr hkr)).trans (ceiling_mono (Nat.le_max_right _ _) hr)
    have hleft : l.height + 1
        ≤ ceiling k (max l.nesting r.nesting) (level.rank + 1) + (binary l op r).row := by
      by_cases hlevel : l.level? = some level
      · -- The row goes on in the left operand.
        have hrow : (binary l op r).row = l.row + 1 := by rw [row, if_pos (hlevel.trans hop.symm)]
        have hheight := ihl hsl hkl
        rw [hsl.level?_eq_some_iff.mp hlevel] at hheight
        have hmono : ceiling k l.nesting (level.rank + 1) ≤ _ :=
          ceiling_mono (Nat.le_max_left l.nesting r.nesting) (Nat.le_refl _)
        omega
      · have hlt : level.rank + 1 ≤ l.rank :=
          Nat.lt_of_le_of_ne hl fun heq => hlevel (hsl.level?_eq_some_iff.mpr heq.symm)
        have hheight := (height_le_ceiling hsl hkl (ihl hsl hkl)).trans
          (ceiling_mono (Nat.le_max_left l.nesting r.nesting) hlt)
        omega
    rw [rank_binary hop, height, nesting]
    omega

/-! ### Highest trees -/

/-- A smallest operand. -/
def leaf : Expr := .literal ⟨.keyword .nil, "nil".toList, .start⟩

def operator : Level → Token
  | .equality   => ⟨.symbol .equalEqual, "==".toList, .start⟩
  | .comparison => ⟨.symbol .less, "<".toList, .start⟩
  | .sum        => ⟨.symbol .plus, "+".toList, .start⟩
  | .product    => ⟨.symbol .star, "*".toList, .start⟩

/-- A tree with a row of operators of a level on top of it. -/
def stack (level : Level) (e : Expr) : Nat → Expr
  | 0     => e
  | k + 1 => .binary (stack level e k) (operator level) leaf

/-- A tree with a row of each level on top of it. -/
def storey (k : Nat) (e : Expr) : Expr :=
  stack .equality (stack .comparison (stack .sum (stack .product e k) k) k) k

/-- The highest tree with `nesting` groupings inside one another and rows of length `k`. -/
def tower (k : Nat) : Nat → Expr
  | 0           => storey k leaf
  | nesting + 1 => storey k (.grouping (tower k nesting))

/-- A tree that can be read, with this nesting and these rows. -/
structure Readable (k rank nesting : Nat) (e : Expr) : Prop where
  lexeme : ∀ t ∈ e.tokens, Lexeme t.content t.lexeme
  stratified : e.Stratified
  rank_le : rank ≤ e.rank
  nesting_eq : e.nesting = nesting
  longestRow_le : e.longestRow ≤ k

lemma operator_level (level : Level) : (operator level).kind.level? = some level := by
  cases level <;> rfl

lemma operator_lexeme (level : Level) :
    Lexeme (operator level).content (operator level).lexeme := by
  cases level <;> exact .symbol rfl

lemma readable_leaf (k : Nat) : Readable k operandRank 0 leaf where
  lexeme t ht := by
    rw [List.mem_singleton.mp ht]
    exact .keyword rfl
  stratified := by simp [leaf, Stratified, Token.kind, Content.kind, literalKinds]
  rank_le := Nat.le_refl _
  nesting_eq := rfl
  longestRow_le := Nat.zero_le _

lemma Readable.grouping (h : Readable k rank nesting e) :
    Readable k operandRank (nesting + 1) (.grouping e) :=
  ⟨h.lexeme, h.stratified, Nat.le_refl _, congrArg (· + 1) h.nesting_eq, h.longestRow_le⟩

lemma height_stack (level : Level) (e : Expr) (k : Nat) :
    (stack level e k).height = e.height + k := by
  induction k with
  | zero => rfl
  | succ k ih =>
    have hpos := e.height_pos
    have hleaf : leaf.height = 1 := rfl
    rw [stack, height, ih, hleaf]
    omega

/-- A row starts on top of a tree that binds tighter than its level. -/
lemma row_stack (h : e.Stratified) (hrank : level.rank < e.rank) (j : Nat) :
    (stack level e (j + 1)).row = j + 1 := by
  induction j with
  | zero =>
    have hlevel : e.level? ≠ (operator level).kind.level? := by
      rw [operator_level]
      exact fun heq => Nat.ne_of_gt hrank (h.level?_eq_some_iff.mp heq)
    rw [stack, stack, row, if_neg hlevel]
  | succ j ih => rw [stack, row, ih, if_pos (by rw [stack, level?])]

lemma Readable.stack (h : Readable k (level.rank + 1) nesting e) {j : Nat} (hj : j ≤ k) :
    Readable k level.rank nesting (stack level e j) := by
  induction j with
  | zero =>
    have hrank := Nat.le_of_succ_le h.rank_le
    exact ⟨h.lexeme, h.stratified, hrank, h.nesting_eq, h.longestRow_le⟩
  | succ j ih =>
    have hbelow := ih (Nat.le_of_succ_le hj)
    have hleaf := readable_leaf k
    have hlevel := operator_level level
    refine ⟨?_, ⟨level, Kind.level?_eq_some_iff.mp hlevel, hbelow.rank_le, level.rank_lt,
      hbelow.stratified, hleaf.stratified⟩, Nat.le_of_eq (rank_binary hlevel).symm, ?_, ?_⟩
    · intro t ht
      simp only [Expr.stack, tokens, List.mem_append, List.mem_cons] at ht
      rcases ht with ht | rfl | ht
      · exact hbelow.lexeme t ht
      · exact operator_lexeme level
      · exact hleaf.lexeme t ht
    · rw [Expr.stack, Expr.nesting, hbelow.nesting_eq, hleaf.nesting_eq, Nat.max_zero]
    · have hrow := row_stack h.stratified h.rank_le j
      rw [Expr.stack] at hrow ⊢
      rw [longestRow, hrow]
      exact Nat.max_le.mpr ⟨hj, Nat.max_le.mpr ⟨hbelow.longestRow_le, hleaf.longestRow_le⟩⟩

lemma Readable.storey (h : Readable k operandRank nesting e) :
    Readable k 0 nesting (storey k e) := by
  have hproduct : Readable k Level.product.rank nesting _ := h.stack (Nat.le_refl k)
  have hsum : Readable k Level.sum.rank nesting _ := hproduct.stack (Nat.le_refl k)
  have hcomparison : Readable k Level.comparison.rank nesting _ := hsum.stack (Nat.le_refl k)
  have hequality : Readable k Level.equality.rank nesting _ := hcomparison.stack (Nat.le_refl k)
  exact hequality

lemma height_storey (k : Nat) (e : Expr) : (storey k e).height = e.height + 4 * k := by
  simp only [storey, height_stack]
  omega

lemma readable_tower (k nesting : Nat) : Readable k 0 nesting (tower k nesting) := by
  induction nesting with
  | zero => exact (readable_leaf k).storey
  | succ nesting ih => exact ih.grouping.storey

lemma height_tower (k nesting : Nat) : (tower k nesting).height = ceiling k nesting 0 := by
  induction nesting with
  | zero =>
    have hleaf : leaf.height = 1 := rfl
    rw [tower, height_storey, hleaf]
    simp only [ceiling, operandRank]
    omega
  | succ nesting ih =>
    rw [tower, height_storey, height, ih]
    simp only [ceiling, operandRank, Nat.mul_succ]
    omega

/-! ### Trees of sources -/

namespace Alike

variable {R : Token → Token → Prop} {d : Expr}

lemma height_eq (h : d.Alike R e) : d.height = e.height := by
  induction h with
  | literal => rfl
  | grouping _ ih | unary _ _ ih => simp only [height, ih]
  | binary _ _ _ ihl ihr => simp only [height, ihl, ihr]

variable (hR : ∀ t u, R t u → t.kind = u.kind)

include hR

lemma level?_eq (h : d.Alike R e) : d.level? = e.level? := by
  cases h with
  | literal | grouping | unary => rfl
  | binary hop => simp only [level?, hR _ _ hop]

lemma row_eq (h : d.Alike R e) : d.row = e.row := by
  induction h with
  | literal | grouping | unary => rfl
  | binary hop hl _ ihl => simp only [row, hl.level?_eq hR, hR _ _ hop, ihl]

lemma longestRow_eq (h : d.Alike R e) : d.longestRow = e.longestRow := by
  induction h with
  | literal => rfl
  | grouping _ ih | unary _ _ ih => exact ih
  | binary hop hl hr ihl ihr =>
    simp only [longestRow, (Alike.binary hop hl hr).row_eq hR, ihl, ihr]

end Alike

/-- A highest tree is the tree of a source, up to the places of its tokens. -/
lemma exists_ofSource_height (k : Nat) :
    ∃ source e, ofSource .strict source = .ok e ∧ e.longestRow ≤ k ∧
      e.height = ceiling k maxNesting 0 := by
  have htower := readable_tower k maxNesting
  obtain ⟨e, he, halike⟩ :=
    ofSource_source htower.lexeme htower.stratified (Nat.le_of_eq htower.nesting_eq)
  refine ⟨_, e, he, ?_, ?_⟩
  · rw [← halike.longestRow_eq Token.kind_eq_of_agree]
    exact htower.longestRow_le
  · rw [← halike.height_eq, height_tower]

/-- A tree that has been read is no higher than its nesting and its rows allow. -/
lemma height_le_of_ofSource {mode : Mode} {source : Text} (h : ofSource mode source = .ok e)
    (hk : e.longestRow ≤ k) : e.height ≤ ceiling k maxNesting 0 := by
  obtain ⟨tokens, -, hparse⟩ := ofSource_eq_ok h
  have hreading := reading_of_parse hparse
  have hstratified := hreading.stratified
  exact (height_le_ceiling hstratified hk (height_le_row hstratified hk)).trans
    (ceiling_mono hreading.nesting_le (Nat.zero_le _))

/-- Of all trees that are read from a source and have no more than `k` operators of one level in a
row, the highest has this height. -/
theorem isGreatest_height (k : Nat) :
    IsGreatest {n | ∃ mode source e, ofSource mode source = .ok e ∧ e.longestRow ≤ k ∧
      e.height = n} ((4 * k + 1) * (maxNesting + 1)) := by
  have hceiling : (4 * k + 1) * (maxNesting + 1) = ceiling k maxNesting 0 := by
    simp only [ceiling, operandRank, Nat.mul_succ]
    omega
  rw [hceiling]
  constructor
  · obtain ⟨source, e, he, hrow, hheight⟩ := exists_ofSource_height k
    exact ⟨.strict, source, e, he, hrow, hheight⟩
  · rintro n ⟨mode, source, e, he, hrow, rfl⟩
    exact height_le_of_ofSource he hrow

/-- No bound on the height holds for the trees of all sources. -/
theorem not_exists_forall_height_le :
    ¬ ∃ bound, ∀ mode source e, ofSource mode source = .ok e → e.height ≤ bound := by
  rintro ⟨bound, hbound⟩
  obtain ⟨source, e, he, -, hheight⟩ := exists_ofSource_height bound
  have hle := hbound .strict source e he
  rw [hheight] at hle
  simp only [ceiling, operandRank, maxNesting] at hle
  omega

end Expr

end LoxReader
