import LoxReader.Proofs.Safety.Reading

/-!
# What a rule does to the parser

Every rule of the grammar, called in front of any of the tokens and at any depth that is allowed,
comes to an end after a bounded number of calls inside one another. It leaves the depth as it was,
and the index behind the tokens of its tree or at the token that it reports. So the guarded parser,
which calls the rule for expressions in front of all of the tokens, parses them as the library does.
-/

namespace LoxReader

namespace Parse

/-- What reads the inside of a unary operator or a grouping, where `nesting` of them may enclose one
another. -/
def enclosed? : Nat → Option Rule
  | 0           => none
  | nesting + 1 => some (operand nesting)

lemma operand_read (nesting : Nat) : (operand nesting).read = readOperand (enclosed? nesting) := by
  cases nesting <;> rfl

end Parse

namespace Guarded

namespace Parser

namespace Nonterminal

/-- What a rule reads, with at most `nesting` openers around one another. -/
def read (nesting : Nat) : Nonterminal → List Token → Except Parse.Failure (Expr × List Token)
  | .expression   => (Parse.expression nesting).read
  | .binary level => (Parse.ofLevel (Parse.operand nesting) level).read
  | .unary        => (Parse.operand nesting).read
  | .primary      => Parse.readPrimary (Parse.enclosed? nesting)

/-- How many rules a rule takes to come to a literal, itself included. -/
def height : Nonterminal → Nat
  | .expression         => 7
  | .binary .equality   => 6
  | .binary .comparison => 5
  | .binary .sum        => 4
  | .binary .product    => 3
  | .unary              => 2
  | .primary            => 1

variable {tokens : Tokens} {depth nesting calls : Nat} {rule : Nonterminal}

lemma height_pos (rule : Nonterminal) : 0 < rule.height := by
  cases rule with
  | binary level => cases level <;> decide
  | expression | unary | primary => decide

lemma height_operand (level : Level) : (operand level).height + 1 = (binary level).height := by
  cases level <;> rfl

/-- A rule passes the tokens that its tree spells. -/
lemma exists_spells {ts rest : List Token} {e : Expr}
    (h : rule.read nesting ts = .ok (e, rest)) : ∃ front, ts = front ++ rest ∧ e.Spells front := by
  have hspells {r : Parse.Rule} {rank : Nat} (hr : r.Exact rank nesting)
      (h : r.read ts = .ok (e, rest)) : ∃ front, ts = front ++ rest ∧ e.Spells front := by
    obtain ⟨front, hts, hreading, -⟩ := hr.sound h
    exact ⟨front, hts, hreading.spells⟩
  cases rule with
  | expression => exact hspells (Parse.expression_exact nesting) h
  | binary level => exact hspells (Parse.ofLevel_exact (Parse.operand_exact nesting) level) h
  | unary => exact hspells (Parse.operand_exact nesting) h
  | primary =>
    have h := Parse.readOperand_of_readPrimary h
    rw [← Parse.operand_read] at h
    exact hspells (Parse.operand_exact nesting) h

/-! ### Calls -/

/-- At a depth that is allowed, a rule that is called does its work. -/
lemma follows_of_body {read : List Token → Except Parse.Failure (Expr × List Token)}
    (hdepth : depth ≤ maxNesting)
    (h : Follows tokens depth (body tokens (run tokens calls) rule) read) :
    Follows tokens depth (run tokens (calls + 1) rule) read := by
  intro ts hts
  refine ⟨(h hts).suffix, (runs_get _).bind ?_⟩
  rw [if_neg (Nat.not_lt_of_le hdepth : ¬ maxNesting < (facing tokens ts depth).depth)]
  exact (h hts).runs

lemma chain_follows_ofLevel (htokens : tokens.Terminated) {x : Parser Expr} {level : Level}
    (hx : Follows tokens depth x ((operand level).read nesting)) :
    Follows tokens depth (chain tokens level x) ((binary level).read nesting) := by
  cases level <;> exact chain_follows htokens hx _

/-- Each rule reads what it is there for. From one opener to the next at most seven rules are called
inside one another, and this bounds the calls. -/
lemma run_follows (htokens : tokens.Terminated) (rule : Nonterminal)
    (hdepth : depth + nesting = maxNesting) (hcalls : rule.height + 7 * nesting ≤ calls) :
    Follows tokens depth (run tokens calls rule) (rule.read nesting) := by
  induction calls generalizing rule depth nesting with
  | zero =>
    have hpos := rule.height_pos
    omega
  | succ calls ih =>
    refine follows_of_body (by omega) ?_
    -- An opener is one level deeper, where even the highest rule takes fewer calls.
    have henclosed (inner : Nonterminal) (f : Parse.Rule → Parse.Rule)
        (hread : ∀ nesting, inner.read nesting = (f (Parse.operand nesting)).read)
        (hheight : inner.height < 7 + rule.height) :
        Encloses tokens depth (run tokens calls inner) ((Parse.enclosed? nesting).map f) := by
      cases nesting with
      | zero => exact Nat.le_of_eq hdepth.symm
      | succ nesting =>
        have hinner := ih inner (by omega : depth + 1 + nesting = maxNesting) (by omega)
        rw [hread] at hinner
        exact ⟨by omega, hinner⟩
    cases rule with
    | expression =>
      have hlower : (binary .equality).height < expression.height := by decide
      exact ih (binary .equality) hdepth (by omega)
    | binary level =>
      have hlower := height_operand level
      exact chain_follows_ofLevel htokens (ih (operand level) hdepth (by omega))
    | unary =>
      have hlower : primary.height < unary.height := by decide
      have hunary := henclosed .unary id (fun _ => rfl) (by decide)
      rw [Option.map_id, id_eq] at hunary
      rw [read, Parse.operand_read]
      exact unary_body_follows htokens (run tokens calls) hunary
        (ih primary hdepth (by omega))
    | primary =>
      have hexpression := henclosed .expression Parse.expressionOver (fun _ => rfl) (by decide)
      exact primary_body_follows htokens (run tokens calls) hexpression

/-! ### The state of the parser -/

/-- The cursor on a token in range. -/
lemma facing_drop {current : Nat} (h : current ≤ tokens.body.length) (depth : Nat) :
    facing tokens (tokens.body.drop current) depth = ⟨current, depth⟩ := by
  rw [facing, List.length_drop, Nat.sub_sub_self h]

/-- The tokens passed lie between the index before and the index behind them. -/
lemma extract_toList {current : Nat} {front rest : List Token}
    (hcurrent : current ≤ tokens.body.length) (h : tokens.body.drop current = front ++ rest) :
    tokens.body.length - rest.length = current + front.length ∧
      tokens.toList.extract current (current + front.length) = front := by
  have hlength := congrArg List.length h
  rw [List.length_drop, List.length_append] at hlength
  refine ⟨by omega, ?_⟩
  rw [List.extract_eq_take_drop, Nat.add_sub_cancel_left, Tokens.toList,
    List.drop_append_of_le_length hcurrent, h, List.append_assoc, List.take_left]

/-- From any of the tokens, the one at the end included, and at any depth that is allowed, each rule
comes to an end: no call is deeper than allowed, no more than seven calls for each level of the
nesting are inside one another, and no loop takes more turns than there are tokens. The depth is
what it was. With a tree, the index has moved over the tokens that the tree spells; with an error,
it is that of the token in the error. -/
theorem exists_runs (htokens : tokens.Terminated) (rule : Nonterminal) {current depth : Nat}
    (hcurrent : current ≤ tokens.body.length) (hdepth : depth ≤ maxNesting) :
    ∃ outcome next,
      (∀ calls, rule.height + 7 * (maxNesting - depth) ≤ calls →
        Runs (run tokens calls rule) ⟨current, depth⟩ outcome ⟨next, depth⟩) ∧
      next ≤ tokens.body.length ∧
      (∀ e, outcome = .ok e → current < next ∧ e.Spells (tokens.toList.extract current next)) ∧
      ∀ error, outcome = .error error →
        error.index = next ∧ tokens.toList[next]? = some error.token := by
  have hnesting : depth + (maxNesting - depth) = maxNesting := Nat.add_sub_cancel' hdepth
  have hfollows {calls : Nat} (hcalls : rule.height + 7 * (maxNesting - depth) ≤ calls) :=
    run_follows htokens rule hnesting hcalls (List.drop_suffix current tokens.body)
  have hruns (calls : Nat) (hcalls : rule.height + 7 * (maxNesting - depth) ≤ calls) :=
    (hfollows hcalls).runs
  have hsuffix := (hfollows (Nat.le_refl _)).suffix
  simp only [facing_drop hcurrent] at hruns
  cases hread : rule.read (maxNesting - depth) (tokens.body.drop current) with
  | ok reading =>
    obtain ⟨e, rest⟩ := reading
    rw [hread] at hruns
    obtain ⟨front, hfront, hspells⟩ := exists_spells hread
    obtain ⟨hnext, hextract⟩ := extract_toList hcurrent hfront
    refine ⟨_, _, hruns, Nat.sub_le _ _, ?_, nofun⟩
    rintro e ⟨⟩
    have hpos := List.length_pos_of_ne_nil hspells.ne_nil
    simp only [remaining]
    rw [hnext, hextract]
    exact ⟨by omega, hspells⟩
  | error failure =>
    rw [hread] at hruns hsuffix
    refine ⟨_, _, hruns, Nat.sub_le _ _, nofun, ?_⟩
    rintro error ⟨⟩
    exact ⟨rfl, getElem?_facing (hsuffix.trans (List.drop_suffix current tokens.body))⟩

/-- In `-nil`, at the greatest depth there is, the literal is read but not the operand of the
unary operator in front of it. -/
theorem exists_runs_negative :
    ∃ tokens : Tokens, tokens.Terminated ∧ tokens.body.length = 2 ∧
      (∀ calls, 2 ≤ calls → Runs (run tokens calls .unary) ⟨0, maxNesting⟩
        (.error ⟨.tooDeeplyNested, 1, ⟨.keyword .nil, "nil".toList, ⟨1, 2⟩⟩⟩) ⟨1, maxNesting⟩) ∧
      ∀ calls, 1 ≤ calls → Runs (run tokens calls .primary) ⟨1, maxNesting⟩
        (.ok (.literal ⟨.keyword .nil, "nil".toList, ⟨1, 2⟩⟩)) ⟨2, maxNesting⟩ := by
  let tokens : Tokens := ⟨[⟨.symbol .minus, "-".toList, ⟨1, 1⟩⟩,
    ⟨.keyword .nil, "nil".toList, ⟨1, 2⟩⟩], ⟨.eof, [], ⟨1, 5⟩⟩⟩
  have htokens : tokens.Terminated := ⟨by decide, by decide⟩
  have hunary : Runs (run tokens 2 .unary) ⟨0, maxNesting⟩
      (.error ⟨.tooDeeplyNested, 1, ⟨.keyword .nil, "nil".toList, ⟨1, 2⟩⟩⟩) ⟨1, maxNesting⟩ := rfl
  have hprimary : Runs (run tokens 1 .primary) ⟨1, maxNesting⟩
      (.ok (.literal ⟨.keyword .nil, "nil".toList, ⟨1, 2⟩⟩)) ⟨2, maxNesting⟩ := rfl
  obtain ⟨outcome, next, hruns, -⟩ :=
    exists_runs htokens .unary (Nat.zero_le _) (Nat.le_refl maxNesting)
  obtain ⟨outcome', next', hruns', -⟩ :=
    exists_runs htokens .primary (by decide : 1 ≤ tokens.body.length) (Nat.le_refl maxNesting)
  have heq := (hruns 2 (by decide)).symm.trans hunary
  have heq' := (hruns' 1 (by decide)).symm.trans hprimary
  cases heq
  cases heq'
  exact ⟨tokens, htokens, rfl, hruns, hruns'⟩

end Nonterminal

/-! ### All of the tokens -/

variable {tokens : Tokens} {calls : Nat}

/-- The parser reads one expression as the library does, and looks whether it is the whole. -/
lemma runs_whole (htokens : tokens.Terminated) (hcalls : 7 * (maxNesting + 1) ≤ calls) :
    ∃ t, Runs (whole tokens calls) ⟨0, 0⟩ (LoxReader.parse tokens) t := by
  have hheight : Nonterminal.expression.height + 7 * maxNesting ≤ calls := by
    simp only [Nonterminal.height]
    omega
  have hfollows : Follows tokens 0 (Nonterminal.run tokens calls .expression)
      (Parse.expression maxNesting).read :=
    Nonterminal.run_follows htokens .expression (Nat.zero_add _) hheight
  obtain ⟨hsuffix, hruns⟩ := hfollows List.suffix_rfl
  have hstart : facing tokens tokens.body 0 = ⟨0, 0⟩ := by simp [facing]
  rw [hstart] at hruns
  simp only [LoxReader.parse]
  cases hread : (Parse.expression maxNesting).read tokens.body with
  | error failure =>
    rw [hread] at hruns
    exact ⟨_, hruns.bind_error⟩
  | ok reading =>
    obtain ⟨e, rest⟩ := reading
    rw [hread] at hruns hsuffix
    refine ⟨facing tokens rest 0, hruns.bind ((runs_isAtEnd htokens hsuffix).bind ?_)⟩
    cases rest with
    | nil => exact runs_pure e _
    | cons t rest => exact runs_fail hsuffix .expectedEnd

end Parser

/-- No guard fails on tokens that are closed by a mark of their end. -/
lemma parse_eq {tokens : Tokens} (htokens : tokens.Terminated) :
    parse tokens = some (LoxReader.parse tokens) := by
  obtain ⟨t, hruns⟩ := Parser.runs_whole htokens (Nat.le_refl _)
  rw [Parser.Runs] at hruns
  rw [parse, hruns]
  rfl

end Guarded

end LoxReader
