import LoxReader.Proofs.Grammar.FirstFailure
import LoxReader.Proofs.Grammar.Simulation
import LoxReader.Proofs.Printing.RoundTrip
import Mathlib.Data.List.OfFn

/-!
# Outlines of trees

An outline has the index of a token where a tree has the token. The kinds of the tokens decide on
the outline that they are read into: every sequence with these kinds is read into the tree that the
outline becomes when each index is replaced by the token there.
-/

namespace LoxReader

/-- The shape of a tree over `n` tokens, with the index of a token at each of its nodes. -/
inductive Outline (n : Nat) where
  | literal (index : Fin n)
  | grouping (inner : Outline n)
  | unary (operator : Fin n) (operand : Outline n)
  | binary (left : Outline n) (operator : Fin n) (right : Outline n)

namespace Outline

variable {n : Nat}

/-- The tree with the token of each index in its place. -/
def fill (token : Fin n → Token) : Outline n → Expr
  | literal i    => .literal (token i)
  | grouping o   => .grouping (o.fill token)
  | unary i o    => .unary (token i) (o.fill token)
  | binary l i r => .binary (l.fill token) (token i) (r.fill token)

/-- The indices of an outline from left to right. -/
def indices : Outline n → List (Fin n)
  | literal i    => [i]
  | grouping o   => o.indices
  | unary i o    => i :: o.indices
  | binary l i r => l.indices ++ i :: r.indices

lemma tokens_fill (token : Fin n → Token) (o : Outline n) :
    (o.fill token).tokens = o.indices.map token := by
  induction o with
  | literal i => rfl
  | grouping o ih => exact ih
  | unary i o ih => simp [fill, Expr.tokens, indices, ih]
  | binary l i r ihl ihr => simp [fill, Expr.tokens, indices, ihl, ihr]

/-- Where the tokens differ from one another, only one tree has the given tokens in their places. -/
lemma eq_fill_of_alike {token token' : Fin n → Token} (hinjective : Function.Injective token)
    {o : Outline n} {e : Expr}
    (h : (o.fill token).Alike (fun t u => ∃ i, t = token i ∧ u = token' i) e) :
    e = o.fill token' := by
  have hleaf {i : Fin n} {u : Token} (hu : ∃ j, token i = token j ∧ u = token' j) :
      u = token' i := by
    obtain ⟨j, hj, rfl⟩ := hu
    rw [hinjective hj]
  induction o generalizing e with
  | literal i =>
    cases h with
    | literal hi => rw [hleaf hi, fill]
  | grouping o ih =>
    cases h with
    | grouping h => rw [ih h, fill]
  | unary i o ih =>
    cases h with
    | unary hi h => rw [hleaf hi, ih h, fill]
  | binary l i r ihl ihr =>
    cases h with
    | binary hi hl hr => rw [hleaf hi, ihl hl, ihr hr, fill]

end Outline

namespace Expr

variable {n : Nat} {d e : Expr} {ts : List Token}

lemma Alike.exists_outline {token token' : Fin n → Token}
    (h : d.Alike (fun t u => ∃ i, t = token i ∧ u = token' i) e) :
    ∃ o : Outline n, d = o.fill token := by
  induction h with
  | literal hi =>
    obtain ⟨i, rfl, -⟩ := hi
    exact ⟨.literal i, rfl⟩
  | grouping _ ih =>
    obtain ⟨o, rfl⟩ := ih
    exact ⟨.grouping o, rfl⟩
  | unary hi _ ih =>
    obtain ⟨i, rfl, -⟩ := hi
    obtain ⟨o, rfl⟩ := ih
    exact ⟨.unary i o, rfl⟩
  | binary hi _ _ ihl ihr =>
    obtain ⟨i, rfl, -⟩ := hi
    obtain ⟨l, rfl⟩ := ihl
    obtain ⟨r, rfl⟩ := ihr
    exact ⟨.binary l i r, rfl⟩

lemma Spells.sublist (h : e.Spells ts) : e.tokens.Sublist ts := by
  induction h with
  | literal t => exact List.Sublist.refl _
  | grouping _ _ _ ih =>
    rw [List.cons_append]
    exact (ih.trans (List.sublist_append_left _ _)).cons _
  | unary op _ ih => exact ih.cons_cons op
  | binary op _ _ ihl ihr => exact ihl.append (ihr.cons_cons op)

end Expr

/-! ### Numbered tokens -/

namespace Tokens

/-- The tokens with their indices in the place of their lines. -/
def numbered (tokens : Tokens) : Tokens :=
  ⟨tokens.body.mapIdx fun i t => { t with position := ⟨i, 0⟩ },
    { tokens.eof with position := ⟨tokens.body.length, 0⟩ }⟩

/-- The token at an index, with the index in the place of its line. -/
def numberedToken (tokens : Tokens) (i : Fin tokens.toList.length) : Token :=
  { tokens.toList.get i with position := ⟨i, 0⟩ }

variable {tokens others : Tokens}

lemma toList_numbered (tokens : Tokens) :
    tokens.numbered.toList = List.ofFn tokens.numberedToken := by
  apply List.ext_getElem
  · rw [List.length_ofFn]
    simp [toList, numbered]
  · intro i hi hi'
    have hmap : tokens.numbered.toList
        = tokens.toList.mapIdx fun i t => { t with position := ⟨i, 0⟩ } := by
      rw [toList, toList, numbered, List.mapIdx_concat]
    simp only [hmap, List.getElem_mapIdx, List.getElem_ofFn]
    rfl

lemma numberedToken_injective (tokens : Tokens) : Function.Injective tokens.numberedToken := by
  intro i j h
  have hline : (tokens.numberedToken i).position.line = (tokens.numberedToken j).position.line :=
    congrArg (fun t => t.position.line) h
  exact Fin.ext hline

/-- Tokens that are related one by one are so before the mark of the end, and there too. -/
lemma forall₂_of_toList {R : Token → Token → Prop}
    (h : List.Forall₂ R tokens.toList others.toList) :
    List.Forall₂ R tokens.body others.body ∧ R tokens.eof others.eof := by
  have hreverse := List.forall₂_reverse_iff.mpr h
  simp only [toList, List.reverse_append, List.reverse_singleton, List.singleton_append] at hreverse
  obtain ⟨heof, hbody⟩ := List.forall₂_cons.mp hreverse
  exact ⟨List.forall₂_reverse_iff.mp hbody, heof⟩

end Tokens

/-! ### Reading by kinds -/

section

variable {tokens others : Tokens} (hlength : tokens.toList.length = others.toList.length)
  (hkind : ∀ i, (tokens.toList.get i).kind = (others.toList.get (i.cast hlength)).kind)

include hkind

/-- Numbered tokens are parsed in step with all tokens of the same kinds. -/
lemma parse_numbered :
    (∃ d e, parse tokens.numbered = .ok d ∧ parse others = .ok e ∧
        d.Alike (fun t u => ∃ i, t = tokens.numberedToken i ∧
          u = others.toList.get (i.cast hlength)) e) ∨
      ∃ a b, parse tokens.numbered = .error a ∧ parse others = .error b ∧ a.reason = b.reason ∧
        a.index = b.index := by
  let R (t u : Token) := ∃ i, t = tokens.numberedToken i ∧ u = others.toList.get (i.cast hlength)
  have hR : ∀ t u, R t u → t.kind = u.kind := by
    rintro t u ⟨i, rfl, rfl⟩
    exact hkind i
  have hlist : List.Forall₂ R tokens.numbered.toList others.toList := by
    rw [Tokens.toList_numbered, List.forall₂_iff_get]
    refine ⟨by rw [List.length_ofFn, hlength], fun i hi hi' => ⟨⟨i, ?_⟩, ?_, rfl⟩⟩
    · rwa [List.length_ofFn] at hi
    · simp
  obtain ⟨hbody, heof⟩ := Tokens.forall₂_of_toList hlist
  rcases parse_inStep hR hbody heof with h | ⟨a, b, ha, hb, hreason, hindex, -⟩
  · exact .inl h
  · exact .inr ⟨a, b, ha, hb, hreason, hindex⟩

end

lemma indices_pairwise_of_parse {tokens : Tokens} {o : Outline tokens.toList.length}
    (h : parse tokens.numbered = .ok (o.fill tokens.numberedToken)) :
    o.indices.Pairwise (· < ·) := by
  have hsublist : (o.indices.map tokens.numberedToken).Sublist tokens.numbered.toList := by
    rw [← Outline.tokens_fill]
    exact (reading_of_parse h).spells.sublist.trans (List.sublist_append_left _ _)
  have hlines : tokens.numbered.toList.Pairwise (fun t u => t.position.line < u.position.line) := by
    rw [Tokens.toList_numbered, List.pairwise_ofFn]
    exact fun _ _ hlt => hlt
  have hindices := hlines.sublist hsublist
  rwa [List.pairwise_map] at hindices

/-- Two sequences of tokens with the same kinds are both parsed, into one outline with the tokens of
the one or of the other in the places of their indices, which ascend from left to right. Or both
fail, for one reason and at the tokens of one index. -/
theorem parse_of_kinds {tokens others : Tokens}
    (hlength : tokens.toList.length = others.toList.length)
    (hkind : ∀ i, (tokens.toList.get i).kind = (others.toList.get (i.cast hlength)).kind) :
    (∃ o : Outline tokens.toList.length, o.indices.Pairwise (· < ·) ∧
        parse tokens = .ok (o.fill tokens.toList.get) ∧
        parse others = .ok (o.fill fun i => others.toList.get (i.cast hlength))) ∨
      ∃ a b, parse tokens = .error a ∧ parse others = .error b ∧ a.reason = b.reason ∧
        a.index = b.index ∧ tokens.toList[a.index]? = some a.token ∧
        others.toList[b.index]? = some b.token := by
  have htokens := @parse_numbered tokens tokens rfl fun _ => rfl
  have hothers := parse_numbered hlength hkind
  rcases htokens with ⟨d, e, hnumbered, he, halike⟩ | ⟨a, b, hnumbered, hb, hreason, hindex⟩
  · rcases hothers with ⟨d', e', hnumbered', he', halike'⟩ | ⟨a', b', hnumbered', -⟩
    · rw [hnumbered] at hnumbered'
      cases hnumbered'
      obtain ⟨o, rfl⟩ := halike.exists_outline
      have heq := Outline.eq_fill_of_alike tokens.numberedToken_injective halike
      have heq' := Outline.eq_fill_of_alike tokens.numberedToken_injective halike'
      subst heq heq'
      exact .inl ⟨o, indices_pairwise_of_parse hnumbered, he, he'⟩
    · rw [hnumbered] at hnumbered'
      cases hnumbered'
  · rcases hothers with ⟨d', e', hnumbered', -⟩ | ⟨a', b', hnumbered', hb', hreason', hindex'⟩
    · rw [hnumbered] at hnumbered'
      cases hnumbered'
    · rw [hnumbered] at hnumbered'
      cases hnumbered'
      exact .inr ⟨b, b', hb, hb', hreason.symm.trans hreason', hindex.symm.trans hindex',
        (Parse.getElem?_of_parse hb).1, (Parse.getElem?_of_parse hb').1⟩

/-- The tokens of the difference of two numbers, all at one place. -/
def Tokens.difference (x y : Binary64) : Tokens :=
  ⟨[⟨.number x, ['0'], .start⟩, ⟨.symbol .minus, ['-'], .start⟩, ⟨.number y, ['0'], .start⟩],
    ⟨.eof, [], .start⟩⟩

/-- The difference of a token and itself has the outline of the difference of a number and a
NaN. -/
theorem parse_of_kinds_difference :
    (∀ i, ((Tokens.difference (.ofBits 0) (.ofBits 0)).toList.get i).kind
      = ((Tokens.difference (.ofBits 1) (.ofBits 0x7FF8000000000000)).toList.get i).kind) ∧
    ∃ o : Outline 4, o.indices.Pairwise (· < ·) ∧
      parse (.difference (.ofBits 0) (.ofBits 0))
        = .ok (o.fill (Tokens.difference (.ofBits 0) (.ofBits 0)).toList.get) ∧
      parse (.difference (.ofBits 1) (.ofBits 0x7FF8000000000000))
        = .ok (o.fill
          (Tokens.difference (.ofBits 1) (.ofBits 0x7FF8000000000000)).toList.get) := by
  have hlength : (Tokens.difference (.ofBits 0) (.ofBits 0)).toList.length
      = (Tokens.difference (.ofBits 1) (.ofBits 0x7FF8000000000000)).toList.length := rfl
  have hkind : ∀ i : Fin 4, ((Tokens.difference (.ofBits 0) (.ofBits 0)).toList.get i).kind
      = ((Tokens.difference (.ofBits 1) (.ofBits 0x7FF8000000000000)).toList.get i).kind := by
    decide +kernel
  have hok : (parse (.difference (.ofBits 0) (.ofBits 0))).isOk := by decide +kernel
  rcases parse_of_kinds hlength hkind with h | ⟨a, b, ha, -⟩
  · exact ⟨hkind, h⟩
  · rw [ha] at hok
    cases hok

end LoxReader
