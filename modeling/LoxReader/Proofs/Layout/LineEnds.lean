import LoxReader.Proofs.Grammar.Simulation
import LoxReader.Proofs.Lexical.Longest

/-!
# Ends of lines

A line may end in a carriage return and a line feed. Outside of strings the carriage return is one
more blank, and it stands at the end of its line, where it moves nothing. So a source has the same
tokens at the same positions with both ends of lines, up to what its strings hold.
-/

namespace LoxReader

/-! ### Carriage returns in front of line feeds -/

namespace Text

/-- The text with a carriage return in front of each line feed. -/
def withReturns (text : Text) : Text :=
  text.flatMap fun c => if c = '\n' then ['\r', '\n'] else [c]

variable {text : Text} {c : Char}

@[simp] lemma withReturns_nil : withReturns [] = [] := rfl

lemma withReturns_lineFeed (text : Text) :
    withReturns ('\n' :: text) = '\r' :: '\n' :: text.withReturns := rfl

lemma withReturns_cons (h : c ≠ '\n') (text : Text) :
    withReturns (c :: text) = c :: text.withReturns := by
  rw [withReturns, List.flatMap_cons, if_neg h]
  rfl

lemma withReturns_append (text text' : Text) :
    withReturns (text ++ text') = text.withReturns ++ text'.withReturns :=
  List.flatMap_append

lemma withReturns_of_not_mem (h : '\n' ∉ text) : text.withReturns = text := by
  induction text with
  | nil => rfl
  | cons c text ih =>
    rw [List.mem_cons, not_or] at h
    rw [withReturns_cons (Ne.symm h.1), ih h.2]

lemma mem_of_mem_withReturns (h : c ∈ text.withReturns) (hc : c ≠ '\r') : c ∈ text := by
  obtain ⟨d, hd, hcd⟩ := List.mem_flatMap.mp h
  split_ifs at hcd with hfeed
  · rcases List.mem_cons.mp hcd with hreturn | hcd
    · exact absurd hreturn hc
    · rwa [List.mem_singleton.mp hcd, ← hfeed]
  · rwa [List.mem_singleton.mp hcd]

lemma isBlank_of_mem_withReturns {d : Char} (hd : isBlank d) : ∀ c ∈ withReturns [d], isBlank c := by
  intro c hc
  by_cases hreturn : c = '\r'
  · exact hreturn ▸ rfl
  · exact List.mem_singleton.mp (mem_of_mem_withReturns hc hreturn) ▸ hd

/-- A text keeps its first character, or has a carriage return in front of it. -/
lemma head?_withReturns (h : c ∈ text.withReturns.head?) : c ∈ text.head? ∨ isBlank c := by
  cases text with
  | nil => cases h
  | cons d text =>
    by_cases hd : d = '\n'
    · subst hd
      cases h
      exact .inr rfl
    · rw [withReturns_cons hd] at h
      exact .inl h

end Text

/-- A carriage return is the last character of its line. -/
lemma Position.after_withReturns (p : Position) (text : Text) :
    p.after text.withReturns = p.after text := by
  induction text generalizing p with
  | nil => rfl
  | cons c text ih =>
    by_cases hc : c = '\n'
    · subst hc
      rw [Text.withReturns_lineFeed, after_cons, after_cons, ih, after_cons]
      rfl
    · rw [Text.withReturns_cons hc, after_cons, ih, after_cons]

def Content.withReturns : Content → Content
  | .string value => .string value.withReturns
  | content       => content

/-- The token with carriage returns in it, if it is a string. -/
def Token.withReturns (t : Token) : Token :=
  match t.content with
  | .string value => ⟨.string value.withReturns, t.lexeme.withReturns, t.position⟩
  | _             => t

def Tokens.withReturns (tokens : Tokens) : Tokens :=
  ⟨tokens.body.map Token.withReturns, tokens.eof.withReturns⟩

def Shape.withReturns : Shape → Shape
  | .token content => .token content.withReturns
  | shape          => shape

def Segment.withReturns (s : Segment) : Segment :=
  ⟨s.shape.withReturns, s.text.withReturns, s.position⟩

variable {mode : Mode} {content : Content} {shape : Shape} {text rest source : Text}
  {tokens : Tokens} {t : Token} {s : Segment}

@[simp] lemma Token.kind_withReturns (t : Token) : t.withReturns.kind = t.kind := by
  obtain ⟨content, lexeme, position⟩ := t
  cases content <;> rfl

@[simp] lemma Token.position_withReturns (t : Token) : t.withReturns.position = t.position := by
  obtain ⟨content, lexeme, position⟩ := t
  cases content <;> rfl

lemma Token.withReturns_of_ne (h : t.kind ≠ .string) : t.withReturns = t := by
  obtain ⟨content, lexeme, position⟩ := t
  cases content with
  | string value => exact absurd rfl h
  | symbol | identifier | number | keyword | eof => rfl

/-! ### Pieces with other ends of lines -/

/-- A string keeps its quotes, and all other lexemes stay as they are. -/
lemma Lexeme.withReturns_cases (h : Lexeme content text) :
    (∃ value, content = .string value ∧
      text.withReturns = '"' :: (value.withReturns ++ ['"']) ∧ '"' ∉ value.withReturns) ∨
    content.withReturns = content ∧ text.withReturns = text := by
  by_cases hstring : ∃ value, content = .string value
  · obtain ⟨value, rfl⟩ := hstring
    obtain ⟨rfl, hvalue⟩ := h.string_inv
    refine .inl ⟨value, rfl, ?_, fun hmem => ?_⟩
    · rw [Text.withReturns_cons (by decide), Text.withReturns_append]
      rfl
    · exact hvalue (Text.mem_of_mem_withReturns hmem (by decide))
  · have hfeed : '\n' ∉ text := fun hmem => hstring (h.string_of_isBlank hmem rfl)
    refine .inr ⟨?_, Text.withReturns_of_not_mem hfeed⟩
    cases content with
    | string value => exact absurd ⟨value, rfl⟩ hstring
    | symbol | identifier | number | keyword | eof => rfl

lemma Content.EndsBefore.withReturns (h : content.EndsBefore text rest) :
    content.EndsBefore text rest.withReturns := by
  refine h.of_starts (fun c hc => Text.head?_withReturns hc) fun d left heq => ?_
  match rest, heq with
  | c :: rest, heq =>
    by_cases hc : c = '\n'
    · subst hc
      cases heq
    · rw [Text.withReturns_cons hc, List.cons.injEq] at heq
      obtain ⟨rfl, hrest⟩ := heq
      have hd : d ∈ (Text.withReturns rest).head? := by simp [hrest]
      rcases Text.head?_withReturns hd with hd | hd
      · obtain ⟨behind, rfl⟩ := List.head?_eq_some_iff.mp hd
        exact .inl ⟨behind, rfl⟩
      · exact .inr hd

/-- What is not passed over is cut off as before. -/
lemma Piece.withReturns (h : Piece shape text rest) (hblank : shape ≠ .blank)
    (hcomment : shape ≠ .comment) :
    Piece shape.withReturns text.withReturns rest.withReturns := by
  cases h with
  | token h hends =>
    rcases h.withReturns_cases with ⟨value, rfl, htext, hvalue⟩ | ⟨hcontent, htext⟩
    · rw [htext]
      exact .token (.string hvalue) trivial
    · rw [Shape.withReturns, hcontent, htext]
      exact .token h hends.withReturns
  | blank => exact absurd rfl hblank
  | comment => exact absurd rfl hcomment
  | stray h =>
    rw [Text.withReturns_cons (h.ne_of_isBlank rfl)]
    exact .stray h
  | unclosed h =>
    rw [Text.withReturns_cons (by decide)]
    exact .unclosed fun hmem => h (Text.mem_of_mem_withReturns hmem (by decide))

/-! ### Scanning with other ends of lines -/

section

variable {α : Type} {f : Segment → Option α} (hblank : ∀ text q, f ⟨.blank, text, q⟩ = none)
  (hcomment : ∀ text q, f ⟨.comment, text, q⟩ = none)

include hblank hcomment

/-- A comment takes the carriage return at the end of its line, which would be a blank. -/
lemma filterMap_segments_comment {body : Text} (hbody : '\n' ∉ body)
    (hrest : ∀ c ∈ rest.head?, c = '\n') (p : Position) :
    (segments p ('/' :: '/' :: body ++ rest.withReturns)).filterMap f
      = (segments (p.after ('/' :: '/' :: body)) rest.withReturns).filterMap f := by
  match rest, hrest with
  | [], _ =>
    rw [Text.withReturns_nil, segments_of_piece (.comment hbody (by simp)),
      List.filterMap_cons_none (hcomment _ _)]
  | c :: rest, hrest =>
    obtain rfl := hrest c rfl
    generalize hbehind : Text.withReturns rest = behind
    have hpiece : Piece .comment ('/' :: '/' :: (body ++ ['\r'])) ('\n' :: behind) :=
      .comment (by simpa using hbody) (by simp)
    have hsource : '/' :: '/' :: body ++ '\r' :: '\n' :: behind
        = '/' :: '/' :: (body ++ ['\r']) ++ '\n' :: behind := by simp
    have hrun : '\r' :: '\n' :: behind = ['\r'] ++ '\n' :: behind := rfl
    have hreturn : ∀ c ∈ ['\r'], isBlank c := List.forall_mem_singleton.mpr (by decide)
    rw [Text.withReturns_lineFeed, hbehind, hsource, segments_of_piece hpiece,
      List.filterMap_cons_none (hcomment _ _), hrun,
      filterMap_segments_blanks hblank hreturn, ← Position.after_append]
    rfl

/-- What is read off the segments of a source, but not off blanks and comments, is read off the same
segments with carriage returns in them. -/
lemma filterMap_segments_withReturns (p : Position) (source : Text) :
    (segments p source.withReturns).filterMap f
      = ((segments p source).map Segment.withReturns).filterMap f := by
  induction source using piece_induction generalizing p with
  | nil => simp [segments]
  | @piece shape text rest hpiece ih =>
    have hafter := p.after_withReturns text
    rw [Text.withReturns_append, segments_of_piece hpiece, List.map_cons]
    by_cases hshape : shape = .blank ∨ shape = .comment
    · have hnone : f (Segment.withReturns ⟨shape, text, p⟩) = none := by
        rcases hshape with rfl | rfl
        · exact hblank _ _
        · exact hcomment _ _
      rw [List.filterMap_cons_none hnone, ← ih, ← hafter]
      cases hpiece with
      | blank h => exact filterMap_segments_blanks hblank (Text.isBlank_of_mem_withReturns h) p _
      | comment hbody hrest =>
        rw [hafter, Text.withReturns_of_not_mem (by simpa using hbody)]
        exact filterMap_segments_comment hblank hcomment hbody hrest p
      | token | stray | unclosed => simp at hshape
    · rw [not_or] at hshape
      rw [segments_of_piece (hpiece.withReturns hshape.1 hshape.2), hafter, List.filterMap_cons,
        List.filterMap_cons, ih]
      rfl

end

lemma Segment.error?_withReturns (mode : Mode) (s : Segment) :
    s.withReturns.error? mode = s.error? mode := by
  obtain ⟨shape, text, p⟩ := s
  cases shape <;> cases mode <;> rfl

/-- In the tokens of a source, lexemes change like all texts do. -/
lemma Token.withReturns_eq (h : Lexeme t.content t.lexeme) :
    t.withReturns = ⟨t.content.withReturns, t.lexeme.withReturns, t.position⟩ := by
  obtain ⟨content, lexeme, p⟩ := t
  rcases h.withReturns_cases with ⟨value, rfl, -⟩ | ⟨-, hlexeme⟩
  · rfl
  · cases content with
    | string value => rfl
    | symbol | identifier | number | keyword | eof => exact congrArg (Token.mk _ · p) hlexeme.symm

lemma Segment.token?_withReturns {p : Position} (h : s ∈ segments p source) :
    s.withReturns.token? = s.token?.map Token.withReturns := by
  obtain ⟨_, rest, -, -, hpiece⟩ := piece_of_mem_segments h
  obtain ⟨shape, text, p⟩ := s
  cases hpiece with
  | @token content _ _ h =>
    have htoken : Token.withReturns ⟨content, text, p⟩ = _ := Token.withReturns_eq h
    exact congrArg some htoken.symm
  | blank | comment | stray | unclosed => rfl

lemma scan_withReturns_eq (mode : Mode) (source : Text) :
    scan mode source.withReturns = (scan mode source).map Tokens.withReturns := by
  have herrors : (segments .start source.withReturns).filterMap (Segment.error? mode)
      = (segments .start source).filterMap (Segment.error? mode) := by
    rw [filterMap_segments_withReturns (fun _ _ => rfl) (fun _ _ => rfl), List.filterMap_map]
    exact List.filterMap_congr fun s _ => s.error?_withReturns mode
  have htokens : (segments .start source.withReturns).filterMap Segment.token?
      = ((segments .start source).filterMap Segment.token?).map Token.withReturns := by
    rw [filterMap_segments_withReturns (fun _ _ => rfl) (fun _ _ => rfl), List.filterMap_map,
      List.map_filterMap]
    exact List.filterMap_congr fun s hs => Segment.token?_withReturns hs
  simp only [scan, herrors, htokens, Position.after_withReturns]
  split <;> rfl

/-- With carriage returns in front of its line feeds, a source has the same errors, or the same tokens
at the same positions but for what strings hold. And it is read into the same tree but for this, or
with an error for the same reason at the same token. -/
theorem scan_withReturns (mode : Mode) (source : Text) :
    scan mode source.withReturns = (scan mode source).map Tokens.withReturns ∧
    (∀ t : Token, t.withReturns.kind = t.kind ∧ t.withReturns.position = t.position ∧
      (t.kind ≠ .string → t.withReturns = t)) ∧
    ∀ tokens, scan mode source = .ok tokens →
      (∃ d e, parse tokens = .ok d ∧ parse tokens.withReturns = .ok e ∧
        d.Alike (fun t u => u = t.withReturns) e) ∨
      ∃ a b, parse tokens = .error a ∧ parse tokens.withReturns = .error b ∧
        b.reason = a.reason ∧ b.index = a.index ∧ b.token = a.token.withReturns ∧
        b.token.position = a.token.position := by
  refine ⟨scan_withReturns_eq mode source, fun t => ⟨t.kind_withReturns, t.position_withReturns,
    Token.withReturns_of_ne⟩, fun tokens _ => ?_⟩
  have hkind : ∀ t u : Token, u = t.withReturns → t.kind = u.kind := by
    rintro t _ rfl
    exact t.kind_withReturns.symm
  have hbody : List.Forall₂ (fun t u => u = t.withReturns) tokens.body tokens.withReturns.body :=
    List.forall₂_map_right_iff.mpr (List.forall₂_same.mpr fun _ _ => rfl)
  rcases parse_inStep hkind hbody rfl with h | ⟨a, b, ha, hb, hreason, hindex, htoken⟩
  · exact .inl h
  · refine .inr ⟨a, b, ha, hb, hreason.symm, hindex.symm, htoken, ?_⟩
    rw [htoken, Token.position_withReturns]

/-- A string over two lines in front of one that does not belong there. -/
theorem scan_withReturns_string :
    scan .strict ['(', '"', '\n', '"', '\n', '"', '"'] = .ok ⟨[⟨.symbol .leftParen, ['('], ⟨1, 1⟩⟩,
      ⟨.string ['\n'], ['"', '\n', '"'], ⟨1, 2⟩⟩, ⟨.string [], ['"', '"'], ⟨3, 1⟩⟩],
      ⟨.eof, [], ⟨3, 3⟩⟩⟩ ∧
    scan .strict ['(', '"', '\r', '\n', '"', '\r', '\n', '"', '"']
      = .ok ⟨[⟨.symbol .leftParen, ['('], ⟨1, 1⟩⟩,
        ⟨.string ['\r', '\n'], ['"', '\r', '\n', '"'], ⟨1, 2⟩⟩, ⟨.string [], ['"', '"'], ⟨3, 1⟩⟩],
        ⟨.eof, [], ⟨3, 3⟩⟩⟩ ∧
    ∃ b, parse ⟨[⟨.symbol .leftParen, ['('], ⟨1, 1⟩⟩,
        ⟨.string ['\r', '\n'], ['"', '\r', '\n', '"'], ⟨1, 2⟩⟩, ⟨.string [], ['"', '"'], ⟨3, 1⟩⟩],
        ⟨.eof, [], ⟨3, 3⟩⟩⟩ = .error b ∧
      b.reason = .expectedRightParen ∧ b.index = 2 ∧ b.token.position = ⟨3, 1⟩ := by
  have hscan : scan .strict ['(', '"', '\n', '"', '\n', '"', '"']
      = .ok ⟨[⟨.symbol .leftParen, ['('], ⟨1, 1⟩⟩, ⟨.string ['\n'], ['"', '\n', '"'], ⟨1, 2⟩⟩,
        ⟨.string [], ['"', '"'], ⟨3, 1⟩⟩], ⟨.eof, [], ⟨3, 3⟩⟩⟩ := by decide +kernel
  have hparse : parse ⟨[⟨.symbol .leftParen, ['('], ⟨1, 1⟩⟩,
      ⟨.string ['\n'], ['"', '\n', '"'], ⟨1, 2⟩⟩, ⟨.string [], ['"', '"'], ⟨3, 1⟩⟩],
      ⟨.eof, [], ⟨3, 3⟩⟩⟩
        = .error ⟨.expectedRightParen, 2, ⟨.string [], ['"', '"'], ⟨3, 1⟩⟩⟩ := by decide +kernel
  obtain ⟨hreturns, -, hread⟩ := scan_withReturns .strict ['(', '"', '\n', '"', '\n', '"', '"']
  rw [hscan] at hreturns
  rcases hread _ hscan with ⟨d, e, hd, -⟩ | ⟨a, b, ha, hb, hreason, hindex, -, hposition⟩
  · rw [hparse] at hd
    cases hd
  · rw [hparse] at ha
    cases ha
    exact ⟨hscan, hreturns, b, hb, hreason, hindex, hposition⟩

end LoxReader
