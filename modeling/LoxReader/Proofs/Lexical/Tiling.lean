import LoxReader.Proofs.Lexical.Piece
import Mathlib.Data.List.Induction

/-!
# Tokens tile their source

Between the lexemes of the tokens lie only blanks, comments and, in lenient mode, characters that
nothing starts with. So a source can be put together again from its tokens and the gaps between
them, and the text in front of a token gives its position.
-/

namespace LoxReader

/-! ### Positions -/

/-- The position behind a text that a source starts with: one line for each line feed, and one
column for each character since the last of them. -/
def Position.behind (t : Text) : Position :=
  ⟨1 + t.count '\n', 1 + (t.reverse.takeWhile (· ≠ '\n')).length⟩

lemma Position.behind_append_singleton (t : Text) (c : Char) :
    behind (t ++ [c]) = (behind t).next c := by
  by_cases hc : c = '\n'
  · simp [behind, next, hc, Nat.add_assoc]
  · simp [behind, next, hc, Nat.add_assoc, Nat.add_comm 1]

lemma Position.after_behind (t u : Text) : (behind t).after u = behind (t ++ u) := by
  induction u generalizing t with
  | nil => simp
  | cons c u ih =>
    rw [after_cons, ← behind_append_singleton, ih]
    simp

lemma Position.after_start (t : Text) : start.after t = behind t :=
  after_behind [] t

/-- A text without a line feed stays on its line. -/
lemma Position.after_of_not_mem (p : Position) {t : Text} (ht : '\n' ∉ t) :
    p.after t = ⟨p.line, p.column + t.length⟩ := by
  induction t generalizing p with
  | nil => rfl
  | cons c t ih =>
    rw [List.mem_cons, not_or] at ht
    rw [after_cons, ih _ ht.2, next, if_neg (Ne.symm ht.1), List.length_cons, Nat.add_assoc,
      Nat.add_comm 1]

/-! ### Tilings -/

/-- Only the last of the tokens is a mark of the end. -/
structure Tokens.Terminated (tokens : Tokens) : Prop where
  eof : tokens.eof.isEof
  body : ∀ t ∈ tokens.body, ¬ t.isEof

/-- A text that is passed over in front of `rest`: a blank, a comment up to the end of its line, or,
in lenient mode, a character that nothing starts with. -/
inductive Trivia (mode : Mode) : Text → Text → Prop where
  | blank {c : Char} {rest : Text} (h : isBlank c) : Trivia mode [c] rest
  | comment {body rest : Text} (h : '\n' ∉ body) (hrest : rest = [] ∨ rest.head? = some '\n') :
      Trivia mode ('/' :: '/' :: body) rest
  | stray {c : Char} {rest : Text} (hmode : mode = .lenient) (h : StartsNothing c) :
      Trivia mode [c] rest

/-- What lies in front of the next lexeme, or of the end: one trivial text after the other. -/
inductive Gap (mode : Mode) (rest : Text) : Text → Prop where
  | nil : Gap mode rest []
  | cons {piece gap : Text} (h : Trivia mode piece (gap ++ rest)) (hgap : Gap mode rest gap) :
      Gap mode rest (piece ++ gap)

/-- Behind the text `before`, a source goes on with the lexemes of these tokens, each at its
position, with a gap in front of each of them and one behind the last. -/
inductive Tiles (mode : Mode) : Text → List Token → Text → Prop where
  | last {before gap : Text} (h : Gap mode [] gap) : Tiles mode before [] gap
  | token {before gap rest : Text} {t : Token} {ts : List Token}
      (hgap : Gap mode (t.lexeme ++ rest) gap) (hne : t.lexeme ≠ [])
      (hposition : t.position = .behind (before ++ gap))
      (h : Tiles mode (before ++ gap ++ t.lexeme) ts rest) :
      Tiles mode before (t :: ts) (gap ++ (t.lexeme ++ rest))

lemma Tiles.skip {mode : Mode} {before piece rest : Text} {ts : List Token}
    (hpiece : Trivia mode piece rest) (h : Tiles mode (before ++ piece) ts rest) :
    Tiles mode before ts (piece ++ rest) := by
  cases h with
  | last hgap => exact .last (.cons (by simpa using hpiece) hgap)
  | @token _ gap rest t ts hgap hne hposition h =>
    rw [← List.append_assoc]
    refine .token (.cons hpiece hgap) hne ?_ ?_
    · simpa using hposition
    · simpa using h

/-! ### The segments of a source -/

lemma Piece.token_or_trivia {shape : Shape} {text rest : Text} {p : Position} {mode : Mode}
    (h : Piece shape text rest) (herror : Segment.error? mode ⟨shape, text, p⟩ = none) :
    (∃ content, shape = .token content ∧ Lexeme content text) ∨
      (Segment.token? ⟨shape, text, p⟩ = none ∧ Trivia mode text rest) := by
  cases h with
  | token h hrest => exact .inl ⟨_, rfl, h⟩
  | blank h => exact .inr ⟨rfl, .blank h⟩
  | comment h hrest =>
    refine .inr ⟨rfl, .comment h ?_⟩
    match rest with
    | [] => exact .inl rfl
    | c :: rest => exact .inr (congrArg some (hrest c rfl))
  | stray h =>
    match mode with
    | .lenient => exact .inr ⟨rfl, .stray rfl h⟩
    | .strict => cases herror
  | unclosed h => cases herror

lemma Lexeme.ne_eof {content : Content} {text : Text} (h : Lexeme content text) :
    content ≠ .eof := by
  rintro rfl
  cases h

/-- Without an error, the segments of the text behind `before` are a tiling of it. -/
lemma tiles_segments {mode : Mode} {p : Position} {source : Text}
    (h : (segments p source).filterMap (Segment.error? mode) = []) (before : Text)
    (hp : .behind before = p) :
    Tiles mode before ((segments p source).filterMap Segment.token?) source := by
  revert before
  fun_induction segments p source with
  | case1 =>
    intro before hp
    exact .last .nil
  | case2 p c rest first text ih =>
    intro before hp
    obtain ⟨herror, herrors⟩ : Segment.error? mode ⟨first.shape, text, p⟩ = none ∧
        (segments (p.after text) first.left).filterMap (Segment.error? mode) = [] := by
      cases herror : Segment.error? mode ⟨first.shape, text, p⟩ with
      | none => exact ⟨rfl, by rwa [List.filterMap_cons_none herror] at h⟩
      | some e => rw [List.filterMap_cons_some herror] at h; cases h
    have hrest := ih herrors (before ++ text) (by rw [← Position.after_behind, hp])
    have hsource : c :: rest = text ++ first.left := congrArg (c :: ·) (cut_append c rest).symm
    rw [hsource]
    rcases (piece_cut c rest).token_or_trivia herror with
      ⟨content, hshape, hlexeme⟩ | ⟨hnone, htrivia⟩
    · have htoken : Segment.token? ⟨first.shape, text, p⟩ = some ⟨content, text, p⟩ := by
        simp only [Segment.token?, first, hshape]
      rw [List.filterMap_cons_some htoken]
      have hposition : p = .behind (before ++ []) := by rw [List.append_nil, hp]
      exact Tiles.token .nil hlexeme.ne_nil hposition (by simpa using hrest)
    · rw [List.filterMap_cons_none hnone]
      exact hrest.skip htrivia

lemma scan_eq_ok {mode : Mode} {source : Text} {tokens : Tokens}
    (h : scan mode source = .ok tokens) :
    (segments .start source).filterMap (Segment.error? mode) = [] ∧
      tokens = ⟨(segments .start source).filterMap Segment.token?,
        ⟨.eof, [], Position.start.after source⟩⟩ := by
  simp only [scan] at h
  split at h
  next herrors =>
    cases h
    exact ⟨herrors, rfl⟩
  next => cases h

lemma scan_eq_error_iff {mode : Mode} {source : Text} {errors : List Scan.Error} :
    scan mode source = .error errors ↔
      errors ≠ [] ∧ errors = (segments .start source).filterMap (Segment.error? mode) := by
  simp only [scan]
  split
  next h => simp [h]
  next h =>
    rw [Except.error.injEq, eq_comm]
    constructor
    · rintro rfl
      exact ⟨h, rfl⟩
    · exact And.right

/-- The tokens of a source are among its segments. -/
lemma mem_segments_of_scan {mode : Mode} {source : Text} {tokens : Tokens} {t : Token}
    (h : scan mode source = .ok tokens) (ht : t ∈ tokens.body) :
    ⟨.token t.content, t.lexeme, t.position⟩ ∈ segments .start source := by
  obtain ⟨-, rfl⟩ := scan_eq_ok h
  obtain ⟨⟨shape, text, p⟩, hs, htoken⟩ := List.mem_filterMap.mp ht
  cases shape with
  | token content =>
    cases htoken
    exact hs
  | blank | comment | stray | unclosed => cases htoken

/-- The tokens of a source have the texts that their contents have. -/
lemma lexeme_of_scan {mode : Mode} {source : Text} {tokens : Tokens} {t : Token}
    (h : scan mode source = .ok tokens) (ht : t ∈ tokens.body) : Lexeme t.content t.lexeme := by
  obtain ⟨-, rest, -, -, hpiece⟩ := piece_of_mem_segments (mem_segments_of_scan h ht)
  cases hpiece with
  | token hlexeme => exact hlexeme

lemma scan_terminated {mode : Mode} {source : Text} {tokens : Tokens}
    (h : scan mode source = .ok tokens) : tokens.Terminated := by
  constructor
  · obtain ⟨-, rfl⟩ := scan_eq_ok h
    rfl
  · intro t ht heof
    exact (lexeme_of_scan h ht).ne_eof (of_decide_eq_true heof)

/-- The tokens of a source tile it: nothing is lost between them but gaps, each stands at its
position, and behind all of the source stands the mark of its end. -/
theorem scan_tiles {mode : Mode} {source : Text} {tokens : Tokens}
    (h : scan mode source = .ok tokens) :
    tokens.Terminated ∧ tokens.eof.lexeme = [] ∧ tokens.eof.position = .behind source ∧
      Tiles mode [] tokens.body source := by
  refine ⟨scan_terminated h, ?_⟩
  obtain ⟨herrors, rfl⟩ := scan_eq_ok h
  exact ⟨rfl, Position.after_start source, tiles_segments herrors [] rfl⟩

theorem scan_tiles_lines :
    scan .lenient "a @//\"\n\"\n\" !".toList = .ok ⟨[⟨.identifier, "a".toList, ⟨1, 1⟩⟩,
        ⟨.string "\n".toList, "\"\n\"".toList, ⟨2, 1⟩⟩, ⟨.symbol .bang, "!".toList, ⟨3, 3⟩⟩],
      ⟨.eof, [], ⟨3, 4⟩⟩⟩ ∧
    Tiles .lenient [] [⟨.identifier, "a".toList, ⟨1, 1⟩⟩,
        ⟨.string "\n".toList, "\"\n\"".toList, ⟨2, 1⟩⟩, ⟨.symbol .bang, "!".toList, ⟨3, 3⟩⟩]
      "a @//\"\n\"\n\" !".toList := by
  have h : scan .lenient "a @//\"\n\"\n\" !".toList = .ok ⟨[⟨.identifier, "a".toList, ⟨1, 1⟩⟩,
        ⟨.string "\n".toList, "\"\n\"".toList, ⟨2, 1⟩⟩, ⟨.symbol .bang, "!".toList, ⟨3, 3⟩⟩],
      ⟨.eof, [], ⟨3, 4⟩⟩⟩ := by decide +kernel
  exact ⟨h, (scan_tiles h).2.2.2⟩

end LoxReader
