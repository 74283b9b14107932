import LoxReader.Proofs.Lexical.Longest
import LoxReader.Proofs.Lexical.Order

/-!
# What is reported about a source

A source can be divided in one way only into tokens, blanks, comments, characters that nothing
starts with, and a string that is never closed. What a scan reports is read off this division: the
characters that nothing starts with, and behind them the string that is never closed.
-/

namespace LoxReader

/-- Behind the text `before`, a source is divided into these segments from left to right. A token is
the longest match at its place, a comment goes on to the end of its line, and a string that is
never closed to the end of the source. -/
inductive Divides : Text → List Segment → Text → Prop where
  | nil {before : Text} : Divides before [] []
  | token {before text rest : Text} {content : Content} {parts : List Segment}
      (h : Lexeme content text) (hlongest : Longest text rest)
      (hrest : Divides (before ++ text) parts rest) :
      Divides before (⟨.token content, text, .behind before⟩ :: parts) (text ++ rest)
  | blank {before rest : Text} {c : Char} {parts : List Segment} (h : isBlank c)
      (hrest : Divides (before ++ [c]) parts rest) :
      Divides before (⟨.blank, [c], .behind before⟩ :: parts) ([c] ++ rest)
  | comment {before body rest : Text} {parts : List Segment} (h : '\n' ∉ body)
      (hend : ∀ c ∈ rest.head?, c = '\n')
      (hrest : Divides (before ++ '/' :: '/' :: body) parts rest) :
      Divides before (⟨.comment, '/' :: '/' :: body, .behind before⟩ :: parts)
        ('/' :: '/' :: body ++ rest)
  | stray {before rest : Text} {c : Char} {parts : List Segment} (h : StartsNothing c)
      (hrest : Divides (before ++ [c]) parts rest) :
      Divides before (⟨.stray c, [c], .behind before⟩ :: parts) ([c] ++ rest)
  | unclosed {before body : Text} (h : '"' ∉ body) :
      Divides before [⟨.unclosed, '"' :: body, .behind before⟩] ('"' :: body)

/-- The report of a character that nothing starts with. -/
def Segment.stray? (s : Segment) : Option Scan.Error :=
  match s.shape with
  | .stray c => some ⟨.unexpectedCharacter c, s.position⟩
  | _        => none

/-- The report of a string that is never closed. -/
def Segment.unclosed? (s : Segment) : Option Scan.Error :=
  match s.shape with
  | .unclosed => some ⟨.unterminatedString, s.position⟩
  | _         => none

/-- What is to be reported about a source with this division. -/
def reports (mode : Mode) (parts : List Segment) : List Scan.Error :=
  (match mode with
    | .strict  => parts.filterMap Segment.stray?
    | .lenient => []) ++ parts.filterMap Segment.unclosed?

variable {mode : Mode} {shape : Shape} {before text rest source : Text} {s : Segment}
  {parts others : List Segment} {e : Scan.Error} {errors : List Scan.Error}

/-! ### The one division -/

lemma segments_behind (before : Text) (h : Piece shape text rest) :
    segments (.behind before) (text ++ rest)
      = ⟨shape, text, .behind before⟩ :: segments (.behind (before ++ text)) rest := by
  rw [segments_of_piece h, Position.after_behind]

lemma divides_segments (before source : Text) :
    Divides before (segments (.behind before) source) source := by
  induction source using piece_induction generalizing before with
  | nil =>
    rw [segments]
    exact .nil
  | @piece shape text rest hpiece ih =>
    have hrest := ih (before ++ text)
    rw [segments_behind before hpiece]
    cases hpiece with
    | token h hends => exact .token h (Piece.token h hends).longest hrest
    | blank h => exact .blank h hrest
    | comment h hend => exact .comment h hend hrest
    | stray h => exact .stray h hrest
    | unclosed h =>
      rw [List.append_nil, segments]
      exact .unclosed h

lemma Divides.eq_segments (h : Divides before parts source) :
    parts = segments (.behind before) source := by
  induction h with
  | nil => rw [segments]
  | token h hlongest _ ih =>
    rw [segments_behind _ (piece_token_iff.mpr ⟨h, hlongest⟩), ih]
  | blank h _ ih => rw [segments_behind _ (.blank h), ih]
  | comment h hend _ ih => rw [segments_behind _ (.comment h hend), ih]
  | stray h _ ih => rw [segments_behind _ (.stray h), ih]
  | @unclosed before body h =>
    have hpiece : Piece .unclosed ('"' :: body) [] := .unclosed h
    have hsegments := segments_behind before hpiece
    rw [List.append_nil, segments] at hsegments
    exact hsegments.symm

/-! ### Reports -/

/-- Behind a string that is never closed there is nothing left. -/
lemma Divides.length_unclosed (h : Divides before parts source) :
    (parts.filterMap Segment.unclosed?).length ≤ 1 := by
  induction h with
  | nil | unclosed => simp [Segment.unclosed?]
  | token _ _ _ ih | blank _ _ ih | comment _ _ _ ih | stray _ _ ih => exact ih

lemma Divides.filterMap_error? (h : Divides before parts source) (mode : Mode) :
    parts.filterMap (Segment.error? mode) = reports mode parts := by
  cases mode with
  | strict =>
    induction h with
    | nil | unclosed => rfl
    | token _ _ _ ih | blank _ _ ih | comment _ _ _ ih => exact ih
    | stray _ _ ih => exact congrArg (_ :: ·) ih
  | lenient =>
    rw [reports, List.nil_append]
    apply List.filterMap_congr
    rintro ⟨shape, text, p⟩ -
    cases shape <;> rfl

lemma Segment.of_error? (h : s.error? mode = some e) :
    e.position = s.position ∧ ((∃ c, s.shape = .stray c) ∨ s.shape = .unclosed) := by
  obtain ⟨shape, text, p⟩ := s
  cases shape <;> cases mode <;> cases h <;> simp

lemma covers_position_of_mem_segments {p : Position} (h : s ∈ segments p source) :
    s.Covers s.position := by
  obtain ⟨_, _, -, -, hpiece⟩ := piece_of_mem_segments h
  exact Segment.covers_position hpiece.ne_nil

/-- Reports come in the order of the source. -/
lemma errors_pairwise (mode : Mode) (p : Position) (source : Text) :
    ((segments p source).filterMap (Segment.error? mode)).Pairwise
      fun e f => e.position.Before f.position := by
  have hpositions : (segments p source).Pairwise fun s t => s.position.Before t.position := by
    refine (segments_pairwise p source).imp_of_mem fun hs _ hbefore => ?_
    exact hbefore _ (covers_position_of_mem_segments hs)
  refine hpositions.filterMap _ ?_
  intro s t hbefore e he f hf
  rw [(Segment.of_error? he).1, (Segment.of_error? hf).1]
  exact hbefore

/-- What is reported lies in no segment but the one it is reported for. -/
lemma not_covers_of_error {p : Position} (hs : s ∈ segments p source)
    (hshape : s.shape = .comment ∨ ∃ value, s.shape = .token (.string value))
    (he : e ∈ (segments p source).filterMap (Segment.error? mode)) : ¬ s.Covers e.position := by
  intro hcovers
  obtain ⟨t, ht, hte⟩ := List.mem_filterMap.mp he
  obtain ⟨hposition, hfault⟩ := Segment.of_error? hte
  rw [hposition] at hcovers
  obtain rfl := eq_of_covers hs ht hcovers (covers_position_of_mem_segments ht)
  rcases hshape with hshape | ⟨value, hshape⟩ <;> simp [hshape] at hfault

/-- Without its last member, a list that ends in at most one of another kind has only those of the
first kind. -/
lemma mem_of_mem_dropLast_append {α : Type} {e : α} {front back : List α} (h : back.length ≤ 1)
    (he : e ∈ (front ++ back).dropLast) : e ∈ front := by
  match back with
  | [] =>
    rw [List.append_nil] at he
    exact (List.dropLast_sublist front).subset he
  | [last] => rwa [List.dropLast_concat] at he

lemma Divides.fault_ne_unterminatedString (h : Divides before parts source)
    (he : e ∈ (reports mode parts).dropLast) : e.fault ≠ .unterminatedString := by
  have hmem := mem_of_mem_dropLast_append h.length_unclosed he
  cases mode with
  | strict =>
    obtain ⟨⟨shape, text, p⟩, -, hstray⟩ := List.mem_filterMap.mp hmem
    cases shape <;> cases hstray
    simp
  | lenient => cases hmem

/-- A source is divided in one way. A scan fails if there is something to be reported about the
segments, and then with all of it, in the order of the source, a string that is never closed being
the last; what a comment or a closed string covers is not reported. -/
theorem scan_reports (source : Text) :
    ∃ parts, Divides [] parts source ∧ (∀ others, Divides [] others source → others = parts) ∧
      ∀ mode,
        (∀ errors, scan mode source = .error errors ↔
          errors ≠ [] ∧ errors = reports mode parts) ∧
        (reports mode parts).Pairwise (fun e f => e.position.Before f.position) ∧
        (∀ e ∈ (reports mode parts).dropLast, e.fault ≠ .unterminatedString) ∧
        ∀ s ∈ parts, (s.shape = .comment ∨ ∃ value, s.shape = .token (.string value)) →
          ∀ e ∈ reports mode parts, ¬ s.Covers e.position := by
  have hdivides : Divides [] (segments .start source) source := divides_segments [] source
  refine ⟨segments .start source, hdivides, fun others h => h.eq_segments, fun mode => ?_⟩
  have hreports := hdivides.filterMap_error? mode
  refine ⟨?_, ?_, ?_, ?_⟩
  · intro errors
    rw [scan_eq_error_iff, hreports]
  · rw [← hreports]
    exact errors_pairwise mode .start source
  · intro e he
    exact hdivides.fault_ne_unterminatedString he
  · intro s hs hshape e he
    rw [← hreports] at he
    exact not_covers_of_error hs hshape he

/-- Neither the slashes in the string nor the quote in the comment count, and what the open string
swallows is not reported. -/
theorem scan_reports_unclosed :
    scan .strict "#\"//@\"//\"$\n\"@".toList
      = .error [⟨.unexpectedCharacter '#', ⟨1, 1⟩⟩, ⟨.unterminatedString, ⟨2, 1⟩⟩] ∧
    ∃ parts, Divides [] parts "#\"//@\"//\"$\n\"@".toList ∧
      reports .strict parts
        = [⟨.unexpectedCharacter '#', ⟨1, 1⟩⟩, ⟨.unterminatedString, ⟨2, 1⟩⟩] := by
  have h : scan .strict "#\"//@\"//\"$\n\"@".toList
      = .error [⟨.unexpectedCharacter '#', ⟨1, 1⟩⟩, ⟨.unterminatedString, ⟨2, 1⟩⟩] := by
    decide +kernel
  obtain ⟨parts, hdivides, -, hreports⟩ := scan_reports "#\"//@\"//\"$\n\"@".toList
  exact ⟨h, parts, hdivides, (((hreports .strict).1 _).mp h).2.symm⟩

end LoxReader
