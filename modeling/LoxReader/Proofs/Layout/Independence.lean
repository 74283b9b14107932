import LoxReader.Proofs.Grammar.Simulation
import LoxReader.Proofs.Lexical.Written

/-!
# Independence of the layout

What is written between the tokens of a source does not matter to what is read. Where blanks keep
its lexemes apart, a text has the tokens of the source but for their positions, and so the tree of
the source or its error.
-/

namespace LoxReader

/-- What may stand between tokens: blanks, and comments with the end of their line. -/
inductive Layout : Text → Prop where
  | nil : Layout []
  | blank {c : Char} {gap : Text} (h : isBlank c) (hgap : Layout gap) : Layout (c :: gap)
  | comment {body gap : Text} (h : '\n' ∉ body) (hgap : Layout gap) :
      Layout ('/' :: '/' :: body ++ '\n' :: gap)

/-- The text has the lexemes of these tokens in order. Between two of them stands a layout that
starts with a blank, and so it does behind the last one, or nothing. -/
inductive LaidOut : List Token → Text → Prop where
  | nil : LaidOut [] []
  | last {t : Token} {gap : Text} (hblank : ∀ c ∈ gap.head?, isBlank c) (hgap : Layout gap) :
      LaidOut [t] (t.lexeme ++ gap)
  | token {t u : Token} {ts : List Token} {c : Char} {gap text : Text} (hblank : isBlank c)
      (hgap : Layout (c :: gap)) (h : LaidOut (u :: ts) text) :
      LaidOut (t :: u :: ts) (t.lexeme ++ (c :: gap ++ text))

variable {mode : Mode} {source text rest gap first : Text} {ts : List Token} {tokens : Tokens}

/-! ### Texts with a layout -/

lemma Layout.written (hgap : Layout gap) (h : Written mode rest ts text) :
    Written mode rest ts (gap ++ text) := by
  induction hgap with
  | nil => exact h
  | blank hc _ ih => exact ih.blank hc
  | comment hbody _ ih =>
    rw [List.append_assoc]
    exact .trivia (.comment hbody (.inr rfl)) (ih.blank rfl)

lemma LaidOut.written (h : LaidOut ts text) (hts : ∀ t ∈ ts, Lexeme t.content t.lexeme) :
    Written mode [] ts text := by
  induction h with
  | nil => exact .nil
  | @last t gap hblank hgap =>
    have hwritten : Written mode [] [] (gap ++ []) := hgap.written .nil
    rw [List.append_nil] at hwritten
    refine .token (hts t List.mem_cons_self) ?_ hwritten
    refine t.content.endsBefore_of_delimiter t.lexeme fun c hc => .inl (hblank c ?_)
    rwa [List.append_nil] at hc
  | @token t u ts c gap text hblank hgap _ ih =>
    refine .token (hts t List.mem_cons_self) ?_ (hgap.written (ih fun v hv => ?_))
    · refine t.content.endsBefore_of_delimiter t.lexeme ?_
      rintro d ⟨⟩
      exact .inl hblank
    · exact hts v (List.mem_cons_of_mem _ hv)

/-! ### Reading another layout -/

/-- A source in another layout has the same tokens but for their positions. Both are parsed into one
tree, and so with the same texts, or fail for one reason at the token with the same index. -/
theorem parse_laidOut (h : scan mode source = .ok tokens) (hfirst : Layout first)
    (htext : LaidOut tokens.body text) :
    ∃ others, scan .strict (first ++ text) = .ok others ∧
      List.Forall₂ Token.Agree tokens.body others.body ∧ tokens.eof.Agree others.eof ∧
      ((∃ d e, parse tokens = .ok d ∧ parse others = .ok e ∧ d.Alike Token.Agree e ∧
          d.bracketed = e.bracketed ∧ d.source = e.source) ∨
        ∃ a b, parse tokens = .error a ∧ parse others = .error b ∧ a.reason = b.reason ∧
          a.index = b.index) := by
  have hwritten : Written .strict [] tokens.body (first ++ text) :=
    hfirst.written (htext.written fun t ht => lexeme_of_scan h ht)
  obtain ⟨others, hscan, hbody⟩ := hwritten.scan_eq_ok
  have heof : tokens.eof.Agree others.eof := by
    obtain ⟨-, rfl⟩ := scan_eq_ok h
    obtain ⟨-, rfl⟩ := scan_eq_ok hscan
    exact ⟨rfl, rfl⟩
  refine ⟨others, hscan, hbody, heof, ?_⟩
  rcases parse_inStep Token.kind_eq_of_agree hbody heof with
    ⟨d, e, hd, he, halike⟩ | ⟨a, b, ha, hb, hreason, hindex, -⟩
  · have hlexeme : ∀ t u : Token, t.Agree u → t.lexeme = u.lexeme := fun _ _ h => h.2
    exact .inl ⟨d, e, hd, he, halike, halike.bracketed_eq hlexeme, halike.source_eq hlexeme⟩
  · exact .inr ⟨a, b, ha, hb, hreason, hindex⟩

/-- An expression whose parenthesis is not closed, with comments that hold parentheses. -/
theorem parse_laidOut_comments :
    scan .lenient "-@(nil".toList = .ok ⟨[⟨.symbol .minus, ['-'], ⟨1, 1⟩⟩,
        ⟨.symbol .leftParen, ['('], ⟨1, 3⟩⟩, ⟨.keyword .nil, ['n', 'i', 'l'], ⟨1, 4⟩⟩],
      ⟨.eof, [], ⟨1, 7⟩⟩⟩ ∧
    Layout ['/', '/', '(', '\n'] ∧
    LaidOut [⟨.symbol .minus, ['-'], ⟨1, 1⟩⟩, ⟨.symbol .leftParen, ['('], ⟨1, 3⟩⟩,
        ⟨.keyword .nil, ['n', 'i', 'l'], ⟨1, 4⟩⟩]
      ['-', '\t', '(', ' ', '/', '/', ')', '\n', 'n', 'i', 'l'] ∧
    ∃ others, scan .strict (['/', '/', '(', '\n'] ++
        ['-', '\t', '(', ' ', '/', '/', ')', '\n', 'n', 'i', 'l']) = .ok others ∧
      ∃ a, parse others = .error a ∧ a.reason = .expectedRightParen ∧ a.index = 3 := by
  have hscan : scan .lenient "-@(nil".toList = .ok ⟨[⟨.symbol .minus, ['-'], ⟨1, 1⟩⟩,
        ⟨.symbol .leftParen, ['('], ⟨1, 3⟩⟩, ⟨.keyword .nil, ['n', 'i', 'l'], ⟨1, 4⟩⟩],
      ⟨.eof, [], ⟨1, 7⟩⟩⟩ := by decide +kernel
  have hfirst : Layout ['/', '/', '(', '\n'] := .comment (show '\n' ∉ ['('] by decide) .nil
  have hgap : Layout [' ', '/', '/', ')', '\n'] :=
    .blank rfl (.comment (show '\n' ∉ [')'] by decide) .nil)
  have htext : LaidOut [⟨.symbol .minus, ['-'], ⟨1, 1⟩⟩, ⟨.symbol .leftParen, ['('], ⟨1, 3⟩⟩,
        ⟨.keyword .nil, ['n', 'i', 'l'], ⟨1, 4⟩⟩]
      ['-', '\t', '(', ' ', '/', '/', ')', '\n', 'n', 'i', 'l'] :=
    .token rfl (.blank rfl .nil) (.token rfl hgap (.last (by simp) .nil))
  have hparse : parse ⟨[⟨.symbol .minus, ['-'], ⟨1, 1⟩⟩, ⟨.symbol .leftParen, ['('], ⟨1, 3⟩⟩,
      ⟨.keyword .nil, ['n', 'i', 'l'], ⟨1, 4⟩⟩], ⟨.eof, [], ⟨1, 7⟩⟩⟩
        = .error ⟨.expectedRightParen, 3, ⟨.eof, [], ⟨1, 7⟩⟩⟩ := by
    decide +kernel
  obtain ⟨others, hothers, -, -, ⟨d, e, hd, -⟩ | ⟨a, b, ha, hb, hreason, hindex⟩⟩ :=
    parse_laidOut hscan hfirst htext
  · rw [hparse] at hd
    cases hd
  · rw [hparse] at ha
    cases ha
    exact ⟨hscan, hfirst, htext, others, hothers, b, hb, hreason.symm, hindex.symm⟩

end LoxReader
