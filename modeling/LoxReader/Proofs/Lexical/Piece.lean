import LoxReader.Proofs.Lexical.Lexeme
import Mathlib.Data.List.TakeWhile
import Mathlib.Tactic.SplitIfs

/-!
# Pieces of a source

A source is cut where the piece in front cannot go on: in front of every text stands exactly one
piece, the one that is cut off.
-/

namespace LoxReader

/-- A token with this content and text cannot go on into the text that follows. -/
def Content.EndsBefore (content : Content) (text rest : Text) : Prop :=
  match content with
  | .symbol s =>
    (s.withEqual? ≠ none → rest.head? ≠ some '=') ∧ (s = .slash → rest.head? ≠ some '/')
  | .keyword _ | .identifier => ∀ c ∈ rest.head?, continuesName c = false
  | .number _ => (∀ c ∈ rest.head?, c.isDigit = false) ∧
      ('.' ∉ text → ∀ d left, rest = '.' :: d :: left → d.isDigit = false)
  | .string _ | .eof => True

/-- The pieces of a source: their shapes, their texts, and what may follow them. -/
inductive Piece : Shape → Text → Text → Prop where
  | token {content : Content} {text rest : Text} (h : Lexeme content text)
      (hrest : content.EndsBefore text rest) : Piece (.token content) text rest
  | blank {c : Char} {rest : Text} (h : isBlank c) : Piece .blank [c] rest
  | comment {body rest : Text} (h : '\n' ∉ body) (hrest : ∀ c ∈ rest.head?, c = '\n') :
      Piece .comment ('/' :: '/' :: body) rest
  | stray {c : Char} {rest : Text} (h : StartsNothing c) : Piece (.stray c) [c] rest
  | unclosed {body : Text} (h : '"' ∉ body) : Piece .unclosed ('"' :: body) []

/-! ### Runs of characters -/

lemma takeWhile_append_of_stop {p : Char → Bool} {run rest : Text} (hrun : ∀ c ∈ run, p c)
    (hrest : ∀ c ∈ rest.head?, p c = false) : (run ++ rest).takeWhile p = run := by
  rw [List.takeWhile_append_of_pos hrun]
  cases rest with
  | nil => simp
  | cons c rest => simp [hrest c rfl]

lemma dropWhile_append_of_stop {p : Char → Bool} {run rest : Text} (hrun : ∀ c ∈ run, p c)
    (hrest : ∀ c ∈ rest.head?, p c = false) : (run ++ rest).dropWhile p = rest := by
  rw [List.dropWhile_append_of_pos hrun]
  cases rest with
  | nil => rfl
  | cons c rest => simp [hrest c rfl]

lemma head?_dropWhile (p : Char → Bool) (text : Text) :
    ∀ c ∈ (text.dropWhile p).head?, p c = false := by
  intro c hc
  have h := List.head?_dropWhile_not p text
  rw [Option.mem_def.mp hc] at h
  exact h

lemma forall_ne_of_not_mem {c : Char} {text : Text} (h : c ∉ text) :
    ∀ d ∈ text, decide (d ≠ c) = true := by
  intro d hd
  rw [decide_eq_true_eq]
  rintro rfl
  exact h hd

/-! ### Cutting off a lexeme -/

lemma cut_of_isDigit {c : Char} (h : c.isDigit) (rest : Text) : cut c rest = .number c rest := by
  have hblank := isBlank_of_continuesName (continuesName_of_isDigit h)
  rw [cut, if_neg (by simp [hblank]), if_pos h]

lemma cut_of_startsName {c : Char} (h : startsName c) (rest : Text) :
    cut c rest = .name c rest := by
  have hblank := isBlank_of_continuesName (continuesName_of_startsName h)
  have hdigit := isDigit_of_startsName h
  rw [cut, if_neg (by simp [hblank]), if_neg (by simp [hdigit]), if_pos h]

lemma cut_of_ofChar? {c : Char} {s : Symbol} {rest : Text} (h : Symbol.ofChar? c = some s)
    (hslash : s = .slash → rest.head? ≠ some '/') : cut c rest = .symbol c rest := by
  obtain ⟨hblank, hdigit, hname, hquote⟩ := Symbol.not_isBlank h
  rw [cut, if_neg (by simp [hblank]), if_neg (by simp [hdigit]), if_neg (by simp [hname]),
    if_neg hquote, if_neg]
  rintro ⟨rfl, hrest⟩
  cases h
  exact hslash rfl hrest

lemma cut_keyword {k : Keyword} {c : Char} {others rest : Text}
    (hk : k.spelling.toList = c :: others) (hrest : ∀ d ∈ rest.head?, continuesName d = false) :
    cut c (others ++ rest) = ⟨.token (.keyword k), others, rest⟩ := by
  obtain ⟨hc, hothers⟩ := Keyword.spelling_eq_cons hk
  rw [cut_of_startsName hc, Cut.name, takeWhile_append_of_stop hothers hrest,
    dropWhile_append_of_stop hothers hrest, ← hk, Keyword.ofText?_spelling]

lemma cut_identifier {c : Char} {others rest : Text} (hc : startsName c)
    (hothers : ∀ d ∈ others, continuesName d) (h : ∀ k : Keyword, k.spelling.toList ≠ c :: others)
    (hrest : ∀ d ∈ rest.head?, continuesName d = false) :
    cut c (others ++ rest) = ⟨.token .identifier, others, rest⟩ := by
  rw [cut_of_startsName hc, Cut.name, takeWhile_append_of_stop hothers hrest,
    dropWhile_append_of_stop hothers hrest, Keyword.ofText?_eq_none h]

lemma cut_string {value : Text} (h : '"' ∉ value) (rest : Text) :
    cut '"' (value ++ ['"'] ++ rest) = ⟨.token (.string value), value ++ ['"'], rest⟩ := by
  have hvalue := forall_ne_of_not_mem h
  have hrest : ∀ c ∈ ('"' :: rest).head?, decide (c ≠ '"') = false := by simp
  have hcut : cut '"' (value ++ '"' :: rest) = Cut.string (value ++ '"' :: rest) := rfl
  rw [List.append_assoc, List.singleton_append, hcut, Cut.string,
    takeWhile_append_of_stop hvalue hrest, dropWhile_append_of_stop hvalue hrest]

lemma cut_integer {c : Char} {digits rest : Text} (hc : c.isDigit)
    (hdigits : ∀ d ∈ digits, d.isDigit) (hrest : ∀ d ∈ rest.head?, d.isDigit = false)
    (hpoint : ∀ d left, rest = '.' :: d :: left → d.isDigit = false) :
    cut c (digits ++ rest)
      = ⟨.token (.number (.ofDecimal (.ofDigits (c :: digits) []))), digits, rest⟩ := by
  rw [cut_of_isDigit hc, Cut.number, takeWhile_append_of_stop hdigits hrest,
    dropWhile_append_of_stop hdigits hrest]
  split
  next d left => rw [if_neg (by simp [hpoint d left rfl])]
  next => rfl

lemma cut_fraction {c d : Char} {digits fraction rest : Text} (hc : c.isDigit)
    (hdigits : ∀ d ∈ digits, d.isDigit) (hd : d.isDigit) (hfraction : ∀ d ∈ fraction, d.isDigit)
    (hrest : ∀ d ∈ rest.head?, d.isDigit = false) :
    cut c (digits ++ '.' :: d :: fraction ++ rest)
      = ⟨.token (.number (.ofDecimal (.ofDigits (c :: digits) (d :: fraction)))),
          digits ++ '.' :: d :: fraction, rest⟩ := by
  have hpoint : ∀ e ∈ ('.' :: d :: (fraction ++ rest)).head?, e.isDigit = false := by
    intro e he
    cases he
    decide
  rw [List.append_assoc, List.cons_append, List.cons_append, cut_of_isDigit hc, Cut.number,
    takeWhile_append_of_stop hdigits hpoint, dropWhile_append_of_stop hdigits hpoint]
  simp only [if_pos hd, takeWhile_append_of_stop hfraction hrest,
    dropWhile_append_of_stop hfraction hrest]

lemma cut_symbol {s : Symbol} {c : Char} {taken rest : Text} (hs : s.spelling = c :: taken)
    (hequal : s.withEqual? ≠ none → rest.head? ≠ some '=')
    (hslash : s = .slash → rest.head? ≠ some '/') :
    cut c (taken ++ rest) = ⟨.token (.symbol s), taken, rest⟩ := by
  rcases Symbol.spelling_eq_cons hs with ⟨rfl, hc⟩ | ⟨rfl, -, -, first, hc, hfirst⟩
  · rw [List.nil_append, cut_of_ofChar? hc hslash, Cut.symbol, hc]
    dsimp only
    split
    next t left ht => exact absurd rfl (hequal (by simp [ht]))
    next => rfl
  · have hne : first = .slash → ('=' :: rest).head? ≠ some '/' := by
      rintro -
      simp
    rw [List.singleton_append, cut_of_ofChar? hc hne, Cut.symbol, hc]
    simp only [hfirst]

/-- A lexeme is cut off as a whole in front of what it cannot go on into. -/
lemma cut_of_lexeme {content : Content} {c : Char} {taken rest : Text}
    (h : Lexeme content (c :: taken)) (hrest : content.EndsBefore (c :: taken) rest) :
    cut c (taken ++ rest) = ⟨.token content, taken, rest⟩ := by
  cases h with
  | symbol hs => exact cut_symbol hs hrest.1 hrest.2
  | keyword hk => exact cut_keyword hk hrest
  | identifier hc hothers h => exact cut_identifier hc hothers h hrest
  | string h => exact cut_string h rest
  | fraction hc hdigits hd hfraction => exact cut_fraction hc hdigits hd hfraction hrest.1
  | integer hc hdigits =>
    refine cut_integer hc hdigits hrest.1 (hrest.2 ?_)
    intro hmem
    rcases List.mem_cons.mp hmem with rfl | hmem
    · exact absurd hc (by decide)
    · exact absurd (hdigits _ hmem) (by decide)

/-! ### Cutting off any piece -/

lemma Piece.ne_nil {shape : Shape} {text rest : Text} (h : Piece shape text rest) : text ≠ [] := by
  cases h with
  | token h => exact h.ne_nil
  | blank | comment | stray | unclosed => exact List.cons_ne_nil _ _

lemma cut_of_startsNothing {c : Char} (h : StartsNothing c) (rest : Text) :
    cut c rest = ⟨.stray c, [], rest⟩ := by
  obtain ⟨hblank, hdigit, hname, hquote, hsymbol⟩ := startsNothing_iff.mp h
  have hslash : ¬ (c = '/' ∧ rest.head? = some '/') := by
    rintro ⟨rfl, -⟩
    cases hsymbol
  rw [cut, if_neg (by simp [hblank]), if_neg (by simp [hdigit]), if_neg (by simp [hname]),
    if_neg hquote, if_neg hslash, Cut.symbol, hsymbol]

lemma cut_comment {body rest : Text} (h : '\n' ∉ body) (hrest : ∀ c ∈ rest.head?, c = '\n') :
    cut '/' ('/' :: body ++ rest) = ⟨.comment, '/' :: body, rest⟩ := by
  have hbody : ∀ c ∈ '/' :: body, decide (c ≠ '\n') = true := by
    apply forall_ne_of_not_mem
    rw [List.mem_cons, not_or]
    exact ⟨by decide, h⟩
  have hstop : ∀ c ∈ rest.head?, decide (c ≠ '\n') = false := by
    intro c hc
    simp [hrest c hc]
  have hcut : cut '/' ('/' :: body ++ rest) = Cut.comment ('/' :: body ++ rest) := rfl
  rw [hcut, Cut.comment, takeWhile_append_of_stop hbody hstop, dropWhile_append_of_stop hbody hstop]

lemma cut_unclosed {body : Text} (h : '"' ∉ body) : cut '"' body = ⟨.unclosed, body, []⟩ := by
  have hbody := forall_ne_of_not_mem h
  have hcut : cut '"' body = Cut.string body := rfl
  rw [hcut, Cut.string, List.dropWhile_eq_nil_iff.mpr hbody]

/-- A piece is cut off in front of what may follow it. -/
theorem cut_of_piece {shape : Shape} {c : Char} {taken rest : Text}
    (h : Piece shape (c :: taken) rest) : cut c (taken ++ rest) = ⟨shape, taken, rest⟩ := by
  cases h with
  | token h hrest => exact cut_of_lexeme h hrest
  | blank h => rw [List.nil_append, cut, if_pos h]
  | comment h hrest => exact cut_comment h hrest
  | stray h => exact cut_of_startsNothing h rest
  | unclosed h => rw [List.append_nil, cut_unclosed h]

/-! ### What is cut off -/

lemma piece_number {c : Char} (hc : c.isDigit) (rest : Text) :
    Piece (Cut.number c rest).shape (c :: (Cut.number c rest).taken) (Cut.number c rest).left := by
  have hdigits : ∀ d ∈ rest.takeWhile Char.isDigit, d.isDigit :=
    fun d hd => List.mem_takeWhile_imp hd
  have hstop := head?_dropWhile Char.isDigit rest
  simp only [Cut.number]
  split
  next d left heq =>
    split
    next hd =>
      refine .token (.fraction hc hdigits hd fun e he => List.mem_takeWhile_imp he) ?_
      refine ⟨head?_dropWhile _ _, fun hmem => absurd ?_ hmem⟩
      simp
    next hd =>
      refine .token (.integer hc hdigits) ⟨heq ▸ hstop, fun _ e left' he => ?_⟩
      cases he
      simpa using hd
  next hne =>
    refine .token (.integer hc hdigits) ⟨hstop, fun _ d left heq => ?_⟩
    exact absurd heq (hne d left)

lemma piece_name {c : Char} (hc : startsName c) (rest : Text) :
    Piece (Cut.name c rest).shape (c :: (Cut.name c rest).taken) (Cut.name c rest).left := by
  have hothers : ∀ d ∈ rest.takeWhile continuesName, continuesName d :=
    fun d hd => List.mem_takeWhile_imp hd
  have hstop := head?_dropWhile continuesName rest
  simp only [Cut.name]
  split
  next k hk => exact .token (.keyword (Keyword.spelling_of_ofText? hk)) hstop
  next hk =>
    refine .token (.identifier hc hothers fun k hspelling => ?_) hstop
    rw [← hspelling, Keyword.ofText?_spelling] at hk
    cases hk

lemma piece_string (rest : Text) :
    Piece (Cut.string rest).shape ('"' :: (Cut.string rest).taken) (Cut.string rest).left := by
  simp only [Cut.string]
  split
  next heq =>
    refine .unclosed fun hmem => ?_
    simpa using List.dropWhile_eq_nil_iff.mp heq _ hmem
  next quote left heq =>
    have hquote := head?_dropWhile (· ≠ '"') rest quote (by rw [heq]; rfl)
    simp only [decide_eq_false_iff_not, not_not] at hquote
    subst hquote
    refine .token (.string fun hmem => ?_) trivial
    simpa using List.mem_takeWhile_imp hmem

lemma piece_comment {rest : Text} (h : rest.head? = some '/') :
    Piece (Cut.comment rest).shape ('/' :: (Cut.comment rest).taken) (Cut.comment rest).left := by
  match rest with
  | c :: rest =>
    cases h
    refine .comment (fun hmem => ?_) fun c hc => ?_
    · simpa using List.mem_takeWhile_imp hmem
    · simpa using head?_dropWhile (· ≠ '\n') _ c hc

lemma piece_symbol {c : Char} {s : Symbol} {rest : Text} (hs : Symbol.ofChar? c = some s)
    (hslash : c = '/' → rest.head? ≠ some '/') :
    Piece (Cut.symbol c rest).shape (c :: (Cut.symbol c rest).taken) (Cut.symbol c rest).left := by
  have hspelling := Symbol.spelling_of_ofChar? hs
  simp only [Cut.symbol, hs]
  split
  next t left ht =>
    have hlexeme := Symbol.spelling_of_withEqual? ht
    rw [hspelling] at hlexeme
    refine .token (.symbol hlexeme) ⟨fun h => absurd ?_ h, ?_⟩
    · cases s <;> cases ht <;> rfl
    · rintro rfl
      cases hlexeme
  next hequal =>
    refine .token (.symbol hspelling) ⟨fun h hrest => ?_, ?_⟩
    · obtain ⟨t, ht⟩ := Option.ne_none_iff_exists'.mp h
      obtain ⟨left, rfl⟩ := List.head?_eq_some_iff.mp hrest
      exact hequal t left ht rfl
    · rintro rfl
      cases hspelling
      exact hslash rfl

/-- What is cut off the front of a text is a piece. -/
theorem piece_cut (c : Char) (rest : Text) :
    Piece (cut c rest).shape (c :: (cut c rest).taken) (cut c rest).left := by
  simp only [cut]
  split_ifs with hblank hdigit hname hquote hcomment
  · exact .blank hblank
  · exact piece_number hdigit rest
  · exact piece_name hname rest
  · exact hquote ▸ piece_string rest
  · exact hcomment.1 ▸ piece_comment hcomment.2
  · cases hs : Symbol.ofChar? c with
    | some s => exact piece_symbol hs fun hc hrest => hcomment ⟨hc, hrest⟩
    | none =>
      rw [Cut.symbol, hs]
      exact .stray (startsNothing_iff.mpr ⟨Bool.eq_false_iff.mpr hblank,
        Bool.eq_false_iff.mpr hdigit, Bool.eq_false_iff.mpr hname, hquote, hs⟩)

lemma exists_piece {source : Text} (h : source ≠ []) :
    ∃ shape text rest, source = text ++ rest ∧ Piece shape text rest := by
  obtain ⟨c, behind, rfl⟩ := List.exists_cons_of_ne_nil h
  exact ⟨_, _, _, congrArg (c :: ·) (cut_append c behind).symm, piece_cut c behind⟩

/-- Every source is put together from pieces, from the last one on. -/
theorem piece_induction {motive : Text → Prop} (nil : motive [])
    (piece : ∀ {shape text rest}, Piece shape text rest → motive rest → motive (text ++ rest))
    (source : Text) : motive source := by
  generalize hlength : source.length = n
  induction n using Nat.strong_induction_on generalizing source with
  | _ n ih =>
    by_cases hsource : source = []
    · rwa [hsource]
    · obtain ⟨shape, text, rest, rfl, h⟩ := exists_piece hsource
      have hlt : rest.length < n := by
        have hpos := List.length_pos_iff.mpr h.ne_nil
        rw [List.length_append] at hlength
        omega
      exact piece h (ih rest.length hlt rest rfl)

lemma segments_of_piece {shape : Shape} {text rest : Text} (h : Piece shape text rest)
    (p : Position) :
    segments p (text ++ rest) = ⟨shape, text, p⟩ :: segments (p.after text) rest := by
  match text with
  | [] => exact absurd rfl h.ne_nil
  | c :: taken => rw [List.cons_append, segments, cut_of_piece h]

/-- Where nothing is read off blanks, a run of them only moves the position. -/
lemma filterMap_segments_blanks {α : Type} {f : Segment → Option α}
    (hblank : ∀ text q, f ⟨.blank, text, q⟩ = none) {run : Text} (hrun : ∀ c ∈ run, isBlank c)
    (p : Position) (rest : Text) :
    (segments p (run ++ rest)).filterMap f = (segments (p.after run) rest).filterMap f := by
  induction run generalizing p with
  | nil => rfl
  | cons c run ih =>
    rw [List.forall_mem_cons] at hrun
    rw [List.cons_append, ← List.singleton_append, segments_of_piece (.blank hrun.1),
      List.filterMap_cons_none (hblank _ _), ih hrun.2]
    rfl

/-- A segment is a piece of the source, and the text in front of it gives its position. -/
lemma piece_of_mem_segments {s : Segment} {p : Position} {source : Text}
    (h : s ∈ segments p source) :
    ∃ front rest, source = front ++ (s.text ++ rest) ∧ s.position = p.after front ∧
      Piece s.shape s.text rest := by
  fun_induction segments p source with
  | case1 => cases h
  | case2 p c rest first text ih =>
    have hsource : c :: rest = text ++ first.left := congrArg (c :: ·) (cut_append c rest).symm
    rcases List.mem_cons.mp h with rfl | h
    · exact ⟨[], first.left, hsource, rfl, piece_cut c rest⟩
    · obtain ⟨front, behind, hleft, hposition, hpiece⟩ := ih h
      refine ⟨text ++ front, behind, ?_, ?_, hpiece⟩
      · rw [hsource, hleft, List.append_assoc]
      · rw [hposition, Position.after_append]

end LoxReader
