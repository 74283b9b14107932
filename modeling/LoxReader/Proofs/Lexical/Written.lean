import LoxReader.Proofs.Lexical.Tiling
import Mathlib.Data.List.Forall2

/-!
# Texts that tokens are written in

A text in which lexemes stand, each in front of what it cannot go on into, with blanks and comments
among them, is scanned into the tokens with these lexemes. Such texts can be put side by side.
-/

namespace LoxReader

/-- Equality of all that a token holds, but for its position. -/
def Token.Agree (t u : Token) : Prop := t.content = u.content ∧ t.lexeme = u.lexeme

/-- In front of `rest`, the text consists of the lexemes of these tokens, in order, and of trivial
texts. -/
inductive Written (mode : Mode) (rest : Text) : List Token → Text → Prop where
  | nil : Written mode rest [] []
  | token {t : Token} {ts : List Token} {text : Text} (ht : Lexeme t.content t.lexeme)
      (hends : t.content.EndsBefore t.lexeme (text ++ rest)) (h : Written mode rest ts text) :
      Written mode rest (t :: ts) (t.lexeme ++ text)
  | trivia {piece text : Text} {ts : List Token} (hpiece : Trivia mode piece (text ++ rest))
      (h : Written mode rest ts text) : Written mode rest ts (piece ++ text)

/-- Its lexeme, scanned alone, gives this token and nothing else. -/
def Token.ScansAlone (t : Token) : Prop :=
  ∃ u eof, scan .strict t.lexeme = .ok ⟨[u], eof⟩ ∧ t.Agree u

variable {mode : Mode} {content : Content} {text rest rest' source : Text} {ts us : List Token}
  {t : Token}

lemma Token.kind_eq_of_agree (t u : Token) (h : t.Agree u) : t.kind = u.kind :=
  congrArg Content.kind h.1

/-! ### What lexemes end before -/

/-- A token ends before every text that starts like one before which it ends, or that has a blank
where it starts to differ. -/
lemma Content.EndsBefore.of_starts (h : content.EndsBefore text rest)
    (hfirst : ∀ c ∈ rest'.head?, c ∈ rest.head? ∨ isBlank c)
    (hsecond : ∀ d left, rest' = '.' :: d :: left →
      (∃ behind, rest = '.' :: d :: behind) ∨ isBlank d) :
    content.EndsBefore text rest' := by
  have hstop {q : Char → Bool} (hblank : ∀ c, isBlank c → q c = false)
      (hq : ∀ c ∈ rest.head?, q c = false) : ∀ c ∈ rest'.head?, q c = false := by
    intro c hc
    rcases hfirst c hc with hc | hc
    · exact hq c hc
    · exact hblank c hc
  have hne {c : Char} (hblank : isBlank c = false) (hc : rest.head? ≠ some c) :
      rest'.head? ≠ some c := by
    intro hc'
    rcases hfirst c hc' with hc' | hc'
    · exact hc hc'
    · rw [hblank] at hc'
      cases hc'
  cases content with
  | symbol s => exact ⟨fun hs => hne (by decide) (h.1 hs), fun hs => hne (by decide) (h.2 hs)⟩
  | keyword | identifier => exact hstop (fun c => continuesName_of_isBlank) h
  | number =>
    refine ⟨hstop (fun c => isDigit_of_isBlank) h.1, fun hpoint d left heq => ?_⟩
    rcases hsecond d left heq with ⟨behind, hrest⟩ | hd
    · exact h.2 hpoint d behind hrest
    · exact isDigit_of_isBlank hd
  | string | eof => trivial

/-- No token goes on into a blank, a closing parenthesis or the end. -/
lemma Content.endsBefore_of_delimiter (content : Content) (text : Text)
    (h : ∀ c ∈ rest.head?, isBlank c ∨ c = ')') : content.EndsBefore text rest := by
  have hname : ∀ c ∈ rest.head?, continuesName c = false := by
    intro c hc
    rcases h c hc with hblank | rfl
    · exact continuesName_of_isBlank hblank
    · decide
  have hne : ∀ c, isBlank c = false → c ≠ ')' → rest.head? ≠ some c := by
    intro c hblank hparen hc
    rcases h c hc with hc | hc
    · rw [hblank] at hc
      cases hc
    · exact hparen hc
  cases content with
  | symbol s =>
    constructor
    · intro _
      exact hne '=' (by decide) (by decide)
    · intro _
      exact hne '/' (by decide) (by decide)
  | keyword | identifier => exact hname
  | number value =>
    constructor
    · intro c hc
      by_contra hdigit
      rw [Bool.not_eq_false] at hdigit
      exact absurd (continuesName_of_isDigit hdigit) (by simp [hname c hc])
    · rintro - d left rfl
      exact absurd rfl (hne '.' (by decide) (by decide))
  | string | eof => trivial

/-! ### Scanning a written text -/

lemma Written.append {others : Text} (h : Written mode (others ++ rest) ts text)
    (hothers : Written mode rest us others) :
    Written mode rest (ts ++ us) (text ++ others) := by
  induction h with
  | nil => exact hothers
  | token ht hends _ ih =>
    rw [List.append_assoc]
    exact .token ht (by rwa [List.append_assoc]) ih
  | trivia hpiece _ ih =>
    rw [List.append_assoc]
    exact .trivia (by rwa [List.append_assoc]) ih

lemma Written.blank {c : Char} (h : Written mode rest ts text) (hc : isBlank c) :
    Written mode rest ts (c :: text) :=
  .trivia (.blank hc) h

lemma Written.of_lexeme (ht : Lexeme t.content t.lexeme)
    (hends : t.content.EndsBefore t.lexeme rest) : Written mode rest [t] t.lexeme := by
  have h : Written mode rest [t] (t.lexeme ++ []) := .token ht hends .nil
  rwa [List.append_nil] at h

lemma Trivia.piece {piece : Text} (h : Trivia mode piece rest) :
    ∃ shape, Piece shape piece rest ∧ ∀ p, Segment.token? ⟨shape, piece, p⟩ = none ∧
      Segment.error? mode ⟨shape, piece, p⟩ = none := by
  cases h with
  | blank h => exact ⟨.blank, .blank h, fun _ => ⟨rfl, rfl⟩⟩
  | comment h hrest =>
    refine ⟨.comment, .comment h ?_, fun _ => ⟨rfl, rfl⟩⟩
    rcases hrest with rfl | hrest
    · simp
    · simp [hrest]
  | stray hmode h =>
    subst hmode
    exact ⟨.stray _, .stray h, fun _ => ⟨rfl, rfl⟩⟩

/-- Wherever it starts, a written text is cut into segments without an error, and the tokens among
them are those written. -/
lemma Written.segments_append (h : Written mode rest ts text) (p : Position) :
    ∃ parts, segments p (text ++ rest) = parts ++ segments (p.after text) rest ∧
      parts.filterMap (Segment.error? mode) = [] ∧
      List.Forall₂ Token.Agree ts (parts.filterMap Segment.token?) := by
  induction h generalizing p with
  | nil => exact ⟨[], rfl, rfl, .nil⟩
  | @token t ts text ht hends _ ih =>
    obtain ⟨parts, hparts, herrors, htokens⟩ := ih (p.after t.lexeme)
    refine ⟨⟨.token t.content, t.lexeme, p⟩ :: parts, ?_, herrors, ?_⟩
    · rw [List.append_assoc, segments_of_piece (.token ht hends), hparts, Position.after_append]
      rfl
    · exact .cons ⟨rfl, rfl⟩ htokens
  | @trivia piece text ts hpiece _ ih =>
    obtain ⟨parts, hparts, herrors, htokens⟩ := ih (p.after piece)
    obtain ⟨shape, hshape, hnone⟩ := hpiece.piece
    refine ⟨⟨shape, piece, p⟩ :: parts, ?_, ?_, ?_⟩
    · rw [List.append_assoc, segments_of_piece hshape, hparts, Position.after_append]
      rfl
    · rw [List.filterMap_cons_none (hnone p).2, herrors]
    · rw [List.filterMap_cons_none (hnone p).1]
      exact htokens

/-- A written text is scanned into the tokens that are written in it. -/
theorem Written.scan_eq_ok (h : Written mode [] ts source) :
    ∃ tokens, scan mode source = .ok tokens ∧ List.Forall₂ Token.Agree ts tokens.body := by
  obtain ⟨parts, hparts, herrors, htokens⟩ := h.segments_append .start
  rw [List.append_nil, segments, List.append_nil] at hparts
  refine ⟨⟨parts.filterMap Segment.token?, ⟨.eof, [], Position.start.after source⟩⟩, ?_, htokens⟩
  simp only [scan, hparts, herrors]

/-- The tokens that their lexemes give again are those whose lexemes are texts of their contents. -/
lemma Token.scansAlone_iff : t.ScansAlone ↔ Lexeme t.content t.lexeme := by
  constructor
  · rintro ⟨u, eof, hscan, hcontent, hlexeme⟩
    rw [hcontent, hlexeme]
    exact lexeme_of_scan hscan (List.mem_singleton_self u)
  · intro ht
    have hends : t.content.EndsBefore t.lexeme [] :=
      t.content.endsBefore_of_delimiter t.lexeme (by simp)
    obtain ⟨⟨body, eof⟩, hscan, htokens⟩ := (Written.of_lexeme ht hends).scan_eq_ok
    obtain ⟨u, us, hagree, hnil, rfl⟩ := List.forall₂_cons_left_iff.mp htokens
    cases hnil
    exact ⟨u, eof, hscan, hagree⟩

end LoxReader
