import LoxReader.Proofs.Lexical.Division

/-!
# Blanking out

With spaces in place of its comments and of the characters that nothing starts with, a source keeps
its tokens and their positions: a space ends every token that one of these ends. A lenient scan of
the source is a strict scan of the blanked one.
-/

namespace LoxReader

/-- The shapes that are blanked out: comments and characters that nothing starts with. -/
def Shape.isBlankedOut : Shape → Bool
  | .comment | .stray _ => true
  | _                   => false

/-- The text of a segment, or as many spaces. -/
def Segment.blanked (s : Segment) : Text :=
  if s.shape.isBlankedOut then List.replicate s.text.length ' ' else s.text

/-- The source with a space for each character of a comment, and for each that nothing starts
with. -/
def blanked (source : Text) : Text := (segments .start source).flatMap Segment.blanked

/-- The character at this position belongs to a comment. -/
def InComment (source : Text) (p : Position) : Prop :=
  ∃ parts s, Divides [] parts source ∧ s ∈ parts ∧ s.shape = .comment ∧ s.Covers p

/-- The strict scan reports that nothing starts with the character `c` at this position. -/
def IsReported (source : Text) (c : Char) (p : Position) : Prop :=
  ∃ errors, scan .strict source = .error errors ∧ ⟨.unexpectedCharacter c, p⟩ ∈ errors

/-- The text differs from the source in spaces for all that belongs to a comment or is reported. -/
structure IsBlanked (source text : Text) : Prop where
  length : text.length = source.length
  space {before rest : Text} {c : Char} : source = before ++ c :: rest →
    InComment source (.behind before) ∨ IsReported source c (.behind before) →
      text[before.length]? = some ' '
  same {before rest : Text} {c : Char} : source = before ++ c :: rest →
    ¬ (InComment source (.behind before) ∨ IsReported source c (.behind before)) →
      text[before.length]? = some c

variable {content : Content} {shape : Shape} {text rest rest' source : Text} {p : Position}

/-! ### What a space ends -/

/-- The second text is the first one with some characters replaced by spaces. -/
abbrev Blanks (text text' : Text) : Prop := List.Forall₂ (fun c d => d = c ∨ d = ' ') text text'

lemma Blanks.head? (h : Blanks rest rest') : ∀ c ∈ rest'.head?, c ∈ rest.head? ∨ c = ' ' := by
  cases h with
  | nil => simp
  | cons hc =>
    intro c' hc'
    cases hc'
    rcases hc with rfl | hc
    · exact .inl rfl
    · exact .inr hc

/-- A token ends before a space as before any text that does not continue it. -/
lemma Content.EndsBefore.of_blanks (h : content.EndsBefore text rest)
    (hblanks : Blanks rest rest') : content.EndsBefore text rest' := by
  refine h.of_starts (fun c hc => ?_) ?_
  · rcases hblanks.head? c hc with hc | rfl
    · exact .inl hc
    · exact .inr rfl
  · rintro d left rfl
    cases hblanks with
    | cons hc hblanks =>
      cases hblanks with
      | cons hd =>
        obtain rfl := hc.resolve_right (by decide)
        rcases hd with rfl | rfl
        · exact .inl ⟨_, rfl⟩
        · exact .inr rfl

/-! ### Blanked segments -/

@[simp] lemma Segment.length_blanked (s : Segment) : s.blanked.length = s.text.length := by
  rw [blanked]
  split <;> simp

lemma blanks_replicate (text : Text) : Blanks text (List.replicate text.length ' ') := by
  induction text with
  | nil => exact .nil
  | cons c text ih => exact .cons (.inr rfl) ih

lemma Segment.blanks_blanked (s : Segment) : Blanks s.text s.blanked := by
  rw [blanked]
  split
  · exact blanks_replicate s.text
  · exact List.forall₂_same.mpr fun c _ => .inl rfl

lemma blanks_segments (p : Position) (source : Text) :
    Blanks source ((segments p source).flatMap Segment.blanked) := by
  induction source using piece_induction generalizing p with
  | nil =>
    rw [segments]
    exact .nil
  | @piece shape text rest hpiece ih =>
    rw [segments_of_piece hpiece, List.flatMap_cons]
    exact List.rel_append (Segment.blanks_blanked ⟨shape, text, p⟩) (ih (p.after text))

/-- What is blanked out has no line feed, so the spaces lead to the same position. -/
lemma Piece.after_blanked (h : Piece shape text rest) (p q : Position) :
    p.after (Segment.blanked ⟨shape, text, q⟩) = p.after text := by
  rw [Segment.blanked]
  split
  next hshape =>
    have htext : '\n' ∉ text := by
      cases h with
      | comment h => simpa using h
      | stray h =>
        rw [List.mem_singleton]
        exact (h.ne_of_isBlank rfl).symm
      | token | blank | unclosed => cases hshape
    rw [p.after_of_not_mem htext, p.after_of_not_mem (by simp), List.length_replicate]
  next => rfl

/-- What is kept of a source is cut as before. -/
lemma Piece.of_blanks (h : Piece shape text rest) (hshape : ¬ shape.isBlankedOut)
    (hblanks : Blanks rest rest') : Piece shape text rest' := by
  cases h with
  | token h hends => exact .token h (hends.of_blanks hblanks)
  | blank h => exact .blank h
  | unclosed h =>
    cases hblanks
    exact .unclosed h
  | comment | stray => exact absurd rfl hshape

/-! ### Scanning the blanked source -/

section

variable {α : Type} {f g : Segment → Option α} (hblank : ∀ text q, f ⟨.blank, text, q⟩ = none)

include hblank

/-- Of the segments of the blanked source is read off what is read off those of the source, as long
as nothing is read off blanks and off what is blanked out. -/
lemma filterMap_segments_blanked (hdropped : ∀ s, s.shape.isBlankedOut → g s = none)
    (hkept : ∀ s, ¬ s.shape.isBlankedOut → f s = g s) (p : Position) (source : Text) :
    (segments p ((segments p source).flatMap Segment.blanked)).filterMap f
      = (segments p source).filterMap g := by
  induction source using piece_induction generalizing p with
  | nil => simp [segments]
  | @piece shape text rest hpiece ih =>
    have hafter := hpiece.after_blanked p p
    rw [segments_of_piece hpiece, List.flatMap_cons]
    by_cases hshape : shape.isBlankedOut
    · rw [Segment.blanked, if_pos hshape] at hafter ⊢
      rw [filterMap_segments_blanks hblank (by simp [isBlank]), hafter, ih,
        List.filterMap_cons_none (hdropped ⟨shape, text, p⟩ hshape)]
    · have hkeep := hpiece.of_blanks hshape (blanks_segments (p.after text) rest)
      rw [Segment.blanked, if_neg hshape, segments_of_piece hkeep, List.filterMap_cons,
        List.filterMap_cons, hkept ⟨shape, text, p⟩ hshape, ih]

end

lemma after_blanked (p : Position) (source : Text) :
    p.after ((segments p source).flatMap Segment.blanked) = p.after source := by
  induction source using piece_induction generalizing p with
  | nil => rw [segments, List.flatMap_nil]
  | @piece shape text rest hpiece ih =>
    rw [segments_of_piece hpiece, List.flatMap_cons, Position.after_append, Position.after_append,
      hpiece.after_blanked, ih]

lemma scan_strict_blanked (source : Text) :
    scan .strict (blanked source) = scan .lenient source := by
  have htokens : (segments .start (blanked source)).filterMap Segment.token?
      = (segments .start source).filterMap Segment.token? := by
    refine filterMap_segments_blanked (fun _ _ => rfl) ?_ (fun _ _ => rfl) .start source
    rintro ⟨shape, text, p⟩ hshape
    cases shape <;> first | rfl | cases hshape
  have herrors : (segments .start (blanked source)).filterMap (Segment.error? .strict)
      = (segments .start source).filterMap (Segment.error? .lenient) := by
    refine filterMap_segments_blanked (fun _ _ => rfl) ?_ ?_ .start source
    · rintro ⟨shape, text, p⟩ hshape
      cases shape <;> first | rfl | cases hshape
    · rintro ⟨shape, text, p⟩ hshape
      cases shape <;> first | rfl | exact absurd rfl hshape
  have hend : Position.start.after (blanked source) = Position.start.after source :=
    after_blanked .start source
  simp only [scan, htokens, herrors, hend]

/-! ### What is blanked out -/

/-- Each character of a source belongs to a segment, which decides what becomes of it. -/
lemma exists_segment_blanked {before rest : Text} {c : Char} (h : source = before ++ c :: rest)
    (p : Position) :
    ∃ s ∈ segments p source, (∃ front back, s.text = front ++ c :: back ∧
        p.after before = s.position.after front) ∧
      ((segments p source).flatMap Segment.blanked)[before.length]?
        = some (if s.shape.isBlankedOut then ' ' else c) := by
  induction source using piece_induction generalizing before p with
  | nil => simp at h
  | @piece shape text behind hpiece ih =>
    have hsegments := segments_of_piece hpiece p
    rw [hsegments, List.flatMap_cons]
    have hsplit : (∃ inner, before = text ++ inner ∧ behind = inner ++ c :: rest) ∨
        ∃ back, text = before ++ c :: back := by
      rcases List.append_eq_append_iff.mp h with ⟨inner, hbefore, hbehind⟩ | ⟨back, htext, hrest⟩
      · exact .inl ⟨inner, hbefore, hbehind⟩
      · rcases List.cons_eq_append_iff.mp hrest with ⟨rfl, hbehind⟩ | ⟨back', rfl, -⟩
        · exact .inl ⟨[], by simp [htext], by simpa using hbehind⟩
        · exact .inr ⟨back', htext⟩
    rcases hsplit with ⟨inner, rfl, hbehind⟩ | ⟨back, htext⟩
    · obtain ⟨s, hs, hcovers, hblanked⟩ := ih hbehind (p.after text)
      refine ⟨s, List.mem_cons_of_mem _ hs, ?_, ?_⟩
      · rwa [Position.after_append]
      · rw [List.getElem?_append_right (by simp), ← hblanked]
        simp
    · refine ⟨⟨shape, text, p⟩, List.mem_cons_self, ⟨before, back, htext, rfl⟩, ?_⟩
      rw [List.getElem?_append_left (by simp [htext]), Segment.blanked]
      split
      next => simp [htext]
      next => simp [htext]

lemma inComment_iff {q : Position} :
    InComment source q ↔ ∃ s ∈ segments .start source, s.shape = .comment ∧ s.Covers q := by
  constructor
  · rintro ⟨parts, s, hdivides, hs, hshape, hcovers⟩
    rw [hdivides.eq_segments] at hs
    exact ⟨s, hs, hshape, hcovers⟩
  · rintro ⟨s, hs, hshape, hcovers⟩
    exact ⟨_, s, divides_segments [] source, hs, hshape, hcovers⟩

lemma isReported_iff {c : Char} {q : Position} :
    IsReported source c q ↔ ∃ s ∈ segments .start source, s.shape = .stray c ∧ s.position = q := by
  constructor
  · rintro ⟨errors, hscan, he⟩
    obtain ⟨-, rfl⟩ := scan_eq_error_iff.mp hscan
    obtain ⟨⟨shape, text, p⟩, hs, herror⟩ := List.mem_filterMap.mp he
    cases shape <;> cases herror
    exact ⟨_, hs, rfl, rfl⟩
  · rintro ⟨⟨shape, text, p⟩, hs, rfl, rfl⟩
    have he : ⟨.unexpectedCharacter c, p⟩
        ∈ (segments .start source).filterMap (Segment.error? .strict) :=
      List.mem_filterMap.mpr ⟨_, hs, rfl⟩
    exact ⟨_, scan_eq_error_iff.mpr ⟨List.ne_nil_of_mem he, rfl⟩, he⟩

/-- A segment is blanked out for a comment or for a report. -/
lemma isBlankedOut_iff {s : Segment} {front back : Text} {c : Char}
    (hs : s ∈ segments .start source) (htext : s.text = front ++ c :: back) :
    s.shape.isBlankedOut ↔ InComment source (s.position.after front) ∨
      IsReported source c (s.position.after front) := by
  have hcovers : s.Covers (s.position.after front) := ⟨front, c, back, htext, rfl⟩
  constructor
  · intro hshape
    obtain ⟨_, rest, -, -, hpiece⟩ := piece_of_mem_segments hs
    obtain ⟨shape, text, p⟩ := s
    cases hpiece with
    | comment => exact .inl (inComment_iff.mpr ⟨_, hs, rfl, hcovers⟩)
    | stray =>
      obtain ⟨rfl, rfl, rfl⟩ : front = [] ∧ c = _ ∧ back = [] := by
        simpa [List.singleton_eq_append_iff] using htext
      exact .inr (isReported_iff.mpr ⟨_, hs, rfl, rfl⟩)
    | token | blank | unclosed => cases hshape
  · rintro (hcomment | hreported)
    · obtain ⟨t, ht, hshape, htcovers⟩ := inComment_iff.mp hcomment
      rw [eq_of_covers hs ht hcovers htcovers, hshape]
      rfl
    · obtain ⟨t, ht, hshape, hposition⟩ := isReported_iff.mp hreported
      have htcovers := covers_position_of_mem_segments ht
      rw [hposition] at htcovers
      rw [eq_of_covers hs ht hcovers htcovers, hshape]
      rfl

lemma isBlanked_blanked (source : Text) : IsBlanked source (blanked source) := by
  refine ⟨(blanks_segments .start source).length_eq.symm, ?_, ?_⟩
  · intro before rest c h hout
    obtain ⟨s, hs, ⟨front, back, htext, hposition⟩, hblanked⟩ :=
      exists_segment_blanked h .start
    rw [← Position.after_start, hposition, ← isBlankedOut_iff hs htext] at hout
    rw [blanked, hblanked, if_pos hout]
  · intro before rest c h hout
    obtain ⟨s, hs, ⟨front, back, htext, hposition⟩, hblanked⟩ :=
      exists_segment_blanked h .start
    rw [← Position.after_start, hposition, ← isBlankedOut_iff hs htext] at hout
    rw [blanked, hblanked, if_neg hout]

/-- A lenient scan gives what a strict scan gives of the source in which all comments, and all
characters that the strict scan reports to start nothing, are replaced by spaces: the same tokens
at the same positions, or the same errors. -/
theorem scan_blanked (source : Text) :
    IsBlanked source (blanked source) ∧ scan .strict (blanked source) = scan .lenient source :=
  ⟨isBlanked_blanked source, scan_strict_blanked source⟩

/-- A space ends the name in front of it, and what looks like a comment in a string is kept. -/
example : blanked "a#b //\"\n\"//@\"".toList = "a b    \n\"//@\"".toList := by decide +kernel

end LoxReader
