import LoxReader.Proofs.Lexical.Longest

/-!
# Texts joined by a line feed

A line feed ends all that a source can be cut into but a string. So a source with a line feed behind
it and another source behind this is scanned into what the two are scanned into, the second one so
many lines farther down.
-/

namespace LoxReader

/-! ### Farther down -/

/-- The position in the same column, so many lines farther down. -/
def Position.lower (n : Nat) (p : Position) : Position := ⟨p.line + n, p.column⟩

def Segment.lower (n : Nat) (s : Segment) : Segment := ⟨s.shape, s.text, s.position.lower n⟩

def Token.lower (n : Nat) (t : Token) : Token := ⟨t.content, t.lexeme, t.position.lower n⟩

def Scan.Error.lower (n : Nat) (e : Scan.Error) : Scan.Error := ⟨e.fault, e.position.lower n⟩

/-- The errors of a scan: none if it gives tokens. -/
def Scan.reported : Except (List Scan.Error) Tokens → List Scan.Error
  | .ok _         => []
  | .error errors => errors

variable {mode : Mode} {shape : Shape} {content : Content} {text rest first second : Text}
  {p : Position} {n : Nat}

lemma Position.next_lower (p : Position) (c : Char) : (p.lower n).next c = (p.next c).lower n := by
  by_cases hc : c = '\n'
  · simp [next, lower, hc, Nat.add_right_comm]
  · simp [next, lower, hc]

lemma Position.after_lower (p : Position) (t : Text) :
    (p.lower n).after t = (p.after t).lower n := by
  induction t generalizing p with
  | nil => rfl
  | cons c t ih => rw [after_cons, after_cons, next_lower, ih]

/-- Behind a text and a line feed a source starts anew, but for the line. -/
lemma Position.behind_next_lineFeed (t : Text) :
    (behind t).next '\n' = start.lower (1 + t.count '\n') := by
  simp [next, behind, lower, start, Nat.add_comm]

lemma segments_lower (p : Position) (source : Text) :
    segments (p.lower n) source = (segments p source).map (Segment.lower n) := by
  induction source using piece_induction generalizing p with
  | nil => simp [segments]
  | @piece shape text rest hpiece ih =>
    rw [segments_of_piece hpiece, segments_of_piece hpiece, Position.after_lower, ih]
    rfl

@[simp] lemma Segment.error?_lower (s : Segment) :
    (s.lower n).error? mode = (s.error? mode).map (Scan.Error.lower n) := by
  obtain ⟨shape, text, p⟩ := s
  cases shape <;> cases mode <;> rfl

@[simp] lemma Segment.token?_lower (s : Segment) :
    (s.lower n).token? = s.token?.map (Token.lower n) := by
  obtain ⟨shape, text, p⟩ := s
  cases shape <;> rfl

/-- What is read off the segments farther down is what is read off the segments, farther down. -/
lemma filterMap_map_lower {α : Type} {f : Segment → Option α} {lower : α → α}
    (h : ∀ s, f (s.lower n) = (f s).map lower) (parts : List Segment) :
    (parts.map (Segment.lower n)).filterMap f = (parts.filterMap f).map lower := by
  rw [List.filterMap_map, List.map_filterMap]
  exact List.filterMap_congr fun s _ => h s

/-! ### In front of a line feed -/

lemma Content.EndsBefore.append_lineFeed (h : content.EndsBefore text rest) (behind : Text) :
    content.EndsBefore text (rest ++ '\n' :: behind) := by
  refine h.of_starts (fun c hc => ?_) fun d left heq => ?_
  · match rest, hc with
    | [], hc =>
      cases hc
      exact .inr rfl
    | c :: rest, hc => exact .inl hc
  · match rest, heq with
    | [], heq => cases heq
    | [c], heq =>
      cases heq
      exact .inr rfl
    | c :: e :: rest, heq =>
      cases heq
      exact .inl ⟨rest, rfl⟩

/-- A piece ends where it ended, whatever is put behind a line feed, if it is no open string. -/
lemma Piece.append_lineFeed (h : Piece shape text rest) (hshape : shape ≠ .unclosed)
    (behind : Text) : Piece shape text (rest ++ '\n' :: behind) := by
  cases h with
  | token h hends => exact .token h (hends.append_lineFeed behind)
  | blank h => exact .blank h
  | comment h hend =>
    refine .comment h fun c hc => ?_
    match rest, hc with
    | [], hc =>
      cases hc
      rfl
    | d :: rest, hc => exact hend c hc
  | stray h => exact .stray h
  | unclosed => exact absurd rfl hshape

lemma segments_append_lineFeed (p : Position) (second : Text)
    (h : ∀ s ∈ segments p first, s.shape ≠ .unclosed) :
    segments p (first ++ '\n' :: second) = segments p first ++
      ⟨.blank, ['\n'], p.after first⟩ :: segments ((p.after first).next '\n') second := by
  induction first using piece_induction generalizing p with
  | nil =>
    rw [segments, List.nil_append, List.nil_append, ← List.singleton_append,
      segments_of_piece (.blank rfl)]
    rfl
  | @piece shape text rest hpiece ih =>
    have hsegments := segments_of_piece hpiece p
    rw [hsegments] at h
    have hfront := hpiece.append_lineFeed (h _ List.mem_cons_self) second
    have hrest := ih (p.after text) fun s hs => h s (List.mem_cons_of_mem _ hs)
    rw [List.append_assoc, segments_of_piece hfront, hrest, hsegments, Position.after_append]
    rfl

/-! ### Scans of joined texts -/

lemma reported_scan (mode : Mode) (source : Text) :
    Scan.reported (scan mode source)
      = (segments .start source).filterMap (Segment.error? mode) := by
  simp only [scan]
  split
  next h => exact h.symm
  next => rfl

lemma shape_ne_unclosed
    (h : ∀ e ∈ Scan.reported (scan mode first), e.fault ≠ .unterminatedString) :
    ∀ s ∈ segments .start first, s.shape ≠ .unclosed := by
  rintro ⟨shape, text, p⟩ hs rfl
  refine h ⟨.unterminatedString, p⟩ ?_ rfl
  rw [reported_scan]
  exact List.mem_filterMap.mpr ⟨_, hs, by cases mode <;> rfl⟩

lemma exists_scan_eq_ok (h : Scan.reported (scan mode first) = []) :
    ∃ tokens, scan mode first = .ok tokens := by
  cases hscan : scan mode first with
  | ok tokens => exact ⟨tokens, rfl⟩
  | error errors =>
    rw [hscan] at h
    exact absurd h (scan_eq_error_iff.mp hscan).1

/-- With a line feed between them, a text without an open string and another text have the errors of
the first and then those of the second, and if there are none the tokens of the first and then those
of the second: nothing but the lines of the second text changes. -/
theorem scan_append_lineFeed
    (h : ∀ e ∈ Scan.reported (scan mode first), e.fault ≠ .unterminatedString) (second : Text) :
    Scan.reported (scan mode (first ++ '\n' :: second)) = Scan.reported (scan mode first) ++
      (Scan.reported (scan mode second)).map (Scan.Error.lower (1 + first.count '\n')) ∧
    (Scan.reported (scan mode (first ++ '\n' :: second)) = [] →
      ∃ ts us, scan mode first = .ok ts ∧ scan mode second = .ok us ∧
        scan mode (first ++ '\n' :: second)
          = .ok ⟨ts.body ++ us.body.map (Token.lower (1 + first.count '\n')),
            us.eof.lower (1 + first.count '\n')⟩) := by
  have hsegments := segments_append_lineFeed .start second (shape_ne_unclosed h)
  rw [Position.after_start, Position.behind_next_lineFeed, segments_lower] at hsegments
  have herrors : Scan.reported (scan mode (first ++ '\n' :: second))
      = Scan.reported (scan mode first) ++
        (Scan.reported (scan mode second)).map (Scan.Error.lower (1 + first.count '\n')) := by
    rw [reported_scan, hsegments, List.filterMap_append, List.filterMap_cons_none rfl,
      filterMap_map_lower Segment.error?_lower, ← reported_scan, ← reported_scan]
  refine ⟨herrors, fun hnone => ?_⟩
  obtain ⟨tokens, hscan⟩ := exists_scan_eq_ok hnone
  rw [herrors, List.append_eq_nil_iff, List.map_eq_nil_iff] at hnone
  obtain ⟨ts, hts⟩ := exists_scan_eq_ok hnone.1
  obtain ⟨us, hus⟩ := exists_scan_eq_ok hnone.2
  refine ⟨ts, us, hts, hus, ?_⟩
  rw [hscan]
  obtain ⟨-, rfl⟩ := scan_eq_ok hscan
  obtain ⟨-, rfl⟩ := scan_eq_ok hts
  obtain ⟨-, rfl⟩ := scan_eq_ok hus
  rw [hsegments, List.filterMap_append, List.filterMap_cons_none rfl,
    filterMap_map_lower Segment.token?_lower, Position.after_append, Position.after_start first,
    Position.after_cons, Position.behind_next_lineFeed, Position.after_lower]
  rfl

/-- The equals signs are not joined, and the quote in the comment opens no string. -/
theorem scan_append_lineFeed_equal :
    scan .strict "a=//\"".toList = .ok ⟨[⟨.identifier, ['a'], ⟨1, 1⟩⟩,
        ⟨.symbol .equal, ['='], ⟨1, 2⟩⟩], ⟨.eof, [], ⟨1, 6⟩⟩⟩ ∧
    scan .strict "=b".toList = .ok ⟨[⟨.symbol .equal, ['='], ⟨1, 1⟩⟩,
        ⟨.identifier, ['b'], ⟨1, 2⟩⟩], ⟨.eof, [], ⟨1, 3⟩⟩⟩ ∧
    scan .strict ("a=//\"".toList ++ '\n' :: "=b".toList) = .ok ⟨[⟨.identifier, ['a'], ⟨1, 1⟩⟩,
        ⟨.symbol .equal, ['='], ⟨1, 2⟩⟩, ⟨.symbol .equal, ['='], ⟨2, 1⟩⟩,
        ⟨.identifier, ['b'], ⟨2, 2⟩⟩], ⟨.eof, [], ⟨2, 3⟩⟩⟩ := by
  have hfirst : scan .strict "a=//\"".toList = .ok ⟨[⟨.identifier, ['a'], ⟨1, 1⟩⟩,
      ⟨.symbol .equal, ['='], ⟨1, 2⟩⟩], ⟨.eof, [], ⟨1, 6⟩⟩⟩ := by decide +kernel
  have hsecond : scan .strict "=b".toList = .ok ⟨[⟨.symbol .equal, ['='], ⟨1, 1⟩⟩,
      ⟨.identifier, ['b'], ⟨1, 2⟩⟩], ⟨.eof, [], ⟨1, 3⟩⟩⟩ := by decide +kernel
  have hclosed : ∀ e ∈ Scan.reported (scan .strict "a=//\"".toList),
      e.fault ≠ .unterminatedString := by
    rw [hfirst]
    exact List.forall_mem_nil _
  obtain ⟨herrors, htokens⟩ := scan_append_lineFeed hclosed "=b".toList
  rw [hfirst, hsecond] at herrors
  obtain ⟨ts, us, hts, hus, hjoined⟩ := htokens herrors
  rw [hfirst] at hts
  rw [hsecond] at hus
  cases hts
  cases hus
  exact ⟨hfirst, hsecond, hjoined⟩

end LoxReader
