import LoxReader.Proofs.Lexical.Written

/-!
# Longest lexemes

A source is read on as far as possible: of all the texts that it goes on with, the longest one that
is a token or a comment is taken. What a token is depends on its text alone, whatever the source
around it.
-/

namespace LoxReader

/-- A comment, without the end of its line. -/
def IsComment (text : Text) : Prop := ∃ body, text = '/' :: '/' :: body ∧ '\n' ∉ body

/-- In front of `rest`, the text cannot be continued to a longer token or comment. -/
def Longest (text rest : Text) : Prop :=
  ∀ more, more <+: rest → more ≠ [] →
    (∀ content, ¬ Lexeme content (text ++ more)) ∧ ¬ IsComment (text ++ more)

/-- A text that looks like an identifier. -/
def IsName (text : Text) : Prop :=
  ∃ c others, text = c :: others ∧ startsName c ∧ ∀ d ∈ others, continuesName d

variable {mode : Mode} {shape shape' : Shape} {content content' : Content}
  {text text' rest rest' more left source : Text} {tokens : Tokens} {t : Token}

/-! ### Pieces in front of less -/

lemma mem_head?_append {c : Char} (h : c ∈ more.head?) : c ∈ (more ++ left).head? := by
  rw [Option.mem_def] at h ⊢
  simp [List.head?_append, h]

lemma Content.EndsBefore.of_append (h : content.EndsBefore text (more ++ left)) :
    content.EndsBefore text more := by
  cases content with
  | symbol s => exact ⟨fun hs hc => h.1 hs (mem_head?_append hc),
      fun hs hc => h.2 hs (mem_head?_append hc)⟩
  | keyword | identifier => exact fun c hc => h c (mem_head?_append hc)
  | number =>
    refine ⟨fun c hc => h.1 c (mem_head?_append hc), ?_⟩
    rintro hpoint d behind rfl
    exact h.2 hpoint d (behind ++ left) rfl
  | string | eof => trivial

/-- What stands farther behind a piece does not matter to it. -/
lemma Piece.of_append (h : Piece shape text (more ++ left)) : Piece shape text more := by
  generalize hrest : more ++ left = rest at h
  cases h with
  | token h hends =>
    subst hrest
    exact .token h hends.of_append
  | blank h => exact .blank h
  | comment h hstop =>
    subst hrest
    exact .comment h fun c hc => hstop c (mem_head?_append hc)
  | stray h => exact .stray h
  | unclosed h =>
    obtain ⟨rfl, -⟩ := List.append_eq_nil_iff.mp hrest
    exact .unclosed h

lemma Piece.of_lexeme (h : Lexeme content text) : Piece (.token content) text [] :=
  .token h (content.endsBefore_of_delimiter text (by simp))

/-- A source starts with one piece only. -/
lemma Piece.unique (h : Piece shape text rest) (h' : Piece shape' text' rest')
    (heq : text ++ rest = text' ++ rest') : shape = shape' ∧ text = text' ∧ rest = rest' := by
  obtain ⟨c, taken, rfl⟩ := List.exists_cons_of_ne_nil h.ne_nil
  obtain ⟨c', taken', rfl⟩ := List.exists_cons_of_ne_nil h'.ne_nil
  rw [List.cons_append, List.cons_append, List.cons.injEq] at heq
  obtain ⟨rfl, heq⟩ := heq
  have hcut := cut_of_piece h
  rw [heq, cut_of_piece h'] at hcut
  cases hcut
  exact ⟨rfl, rfl, rfl⟩

/-! ### Longest matches -/

/-- A piece is cut off where no longer token or comment would do. -/
lemma Piece.longest (h : Piece shape text rest) : Longest text rest := by
  rintro more ⟨left, rfl⟩ hmore
  -- Alone, the longer text would be one piece, and with the shorter one in front it is two.
  have halone {shape' : Shape} : ¬ Piece shape' (text ++ more) [] := by
    intro h'
    obtain ⟨-, -, hnil⟩ := h.of_append.unique h' (List.append_nil _).symm
    exact hmore hnil
  refine ⟨fun content hlexeme => halone (.of_lexeme hlexeme), ?_⟩
  rintro ⟨body, hcomment, hbody⟩
  rw [hcomment] at halone
  exact halone (.comment hbody (by simp))

lemma Piece.eq_unclosed_of_prefix {body : Text} (h : Piece shape text []) (hbody : '"' ∉ body)
    (hinitial : text <+: '"' :: body) : shape = .unclosed := by
  obtain ⟨c, taken, rfl⟩ := List.exists_cons_of_ne_nil h.ne_nil
  obtain ⟨rfl, htaken⟩ := List.cons_prefix_cons.mp hinitial
  have hunclosed : Piece .unclosed ('"' :: taken) [] :=
    .unclosed fun hmem => hbody (htaken.subset hmem)
  exact (h.unique hunclosed rfl).1

/-- What is longer than a piece that ends by itself is no piece but a token or a comment. -/
lemma Piece.not_longest (h : Piece shape text []) (hclosed : shape ≠ .unclosed) (hmore : more ≠ [])
    (hlonger : Piece shape' (text ++ more) rest) : ¬ Longest text (more ++ rest) := by
  intro hlongest
  obtain ⟨hlexeme, hcomment⟩ := hlongest more (List.prefix_append _ _) hmore
  have hlength : ∀ c, text ++ more ≠ [c] := by
    intro c hc
    rcases List.append_eq_singleton_iff.mp hc with ⟨hnil, -⟩ | ⟨-, hnil⟩
    · exact h.ne_nil hnil
    · exact hmore hnil
  generalize htext : text ++ more = text' at hlonger hlexeme hcomment hlength
  cases hlonger with
  | token hlonger => exact hlexeme _ hlonger
  | blank => exact hlength _ rfl
  | comment hbody => exact hcomment ⟨_, rfl, hbody⟩
  | stray => exact hlength _ rfl
  | unclosed hbody => exact hclosed (h.eq_unclosed_of_prefix hbody (htext ▸ List.prefix_append _ _))

/-- A piece that ends by itself is cut off a source wherever it is the longest match. -/
lemma Piece.of_longest (h : Piece shape text []) (hclosed : shape ≠ .unclosed)
    (hlongest : Longest text rest) : Piece shape text rest := by
  obtain ⟨shape', text', rest', happend, hfirst⟩ :=
    exists_piece (List.append_ne_nil_of_left_ne_nil h.ne_nil rest)
  -- The piece in front is `text` itself: if longer, `text` is no longest match, and if shorter,
  -- `text` is not one piece.
  obtain rfl : text = text' := by
    rcases List.append_eq_append_iff.mp happend with ⟨more, rfl, rfl⟩ | ⟨more, rfl, rfl⟩
    · by_contra hne
      exact h.not_longest hclosed (fun hmore => hne (by simp [hmore])) hfirst hlongest
    · obtain ⟨-, -, rfl⟩ := hfirst.of_append.unique h (List.append_nil _).symm
      exact List.append_nil _
  obtain rfl : rest = rest' := List.append_cancel_left happend
  have halone : Piece shape' text [] := hfirst.of_append
  obtain ⟨rfl, -⟩ := halone.unique h rfl
  exact hfirst

/-- A lexeme is cut off exactly where it is the longest match. -/
lemma piece_token_iff :
    Piece (.token content) text rest ↔ Lexeme content text ∧ Longest text rest := by
  constructor
  · intro h
    refine ⟨?_, h.longest⟩
    cases h with
    | token h => exact h
  · rintro ⟨h, hlongest⟩
    exact (Piece.of_lexeme h).of_longest nofun hlongest

/-! ### Texts decide on tokens -/

lemma Lexeme.content_unique (h : Lexeme content text) (h' : Lexeme content' text) :
    content = content' := by
  obtain ⟨hshape, -⟩ := (Piece.of_lexeme h).unique (Piece.of_lexeme h') rfl
  cases hshape
  rfl

/-- A lexeme alone is scanned into its token. -/
lemma scan_lexeme (h : Lexeme content text) (mode : Mode) :
    scan mode text = .ok ⟨[⟨content, text, .start⟩], ⟨.eof, [], .behind text⟩⟩ := by
  have hsegments := segments_of_piece (Piece.of_lexeme h) .start
  rw [List.append_nil, segments] at hsegments
  simp only [scan, hsegments, Position.after_start]
  rfl

lemma Keyword.lexeme_of_ofText? {k : Keyword} (hk : Keyword.ofText? text = some k) :
    Lexeme (.keyword k) text :=
  .keyword (Keyword.spelling_of_ofText? hk)

lemma IsName.lexeme (h : IsName text) (hk : Keyword.ofText? text = none) :
    Lexeme .identifier text := by
  obtain ⟨c, others, rfl, hc, hothers⟩ := h
  refine .identifier hc hothers fun k hspelling => ?_
  rw [← hspelling, Keyword.ofText?_spelling] at hk
  cases hk

/-- What looks like a name is the keyword with this spelling, or else an identifier. -/
lemma Lexeme.content_of_isName (h : Lexeme content text) (hname : IsName text) :
    (∀ k, content = .keyword k ↔ Keyword.ofText? text = some k) ∧
      (content = .identifier ↔ Keyword.ofText? text = none) := by
  cases hk : Keyword.ofText? text with
  | none =>
    obtain rfl := h.content_unique (hname.lexeme hk)
    simp
  | some k =>
    obtain rfl := h.content_unique (Keyword.lexeme_of_ofText? hk)
    simp

lemma Lexeme.string_inv {value : Text} (h : Lexeme (.string value) text) :
    text = '"' :: (value ++ ['"']) ∧ '"' ∉ value := by
  cases h with
  | string h => exact ⟨rfl, h⟩

/-- A token that is the longest match is no part of a longer text that is one token. -/
lemma Longest.not_scan {longer : Text} (h : Longest text rest) (hlonger : longer <+: text ++ rest)
    (hlength : text.length < longer.length) :
    ¬ ∃ u eof, scan .strict longer = .ok ⟨[u], eof⟩ ∧ u.lexeme = longer := by
  rintro ⟨u, eof, hscan, rfl⟩
  obtain ⟨more, hmore⟩ := List.prefix_of_prefix_length_le (List.prefix_append text rest) hlonger
    (Nat.le_of_lt hlength)
  rw [← hmore] at hlonger hlength
  have hne : more ≠ [] := by
    rintro rfl
    simp at hlength
  refine (h more ((List.prefix_append_right_inj text).mp hlonger) hne).1 u.content ?_
  rw [hmore]
  exact lexeme_of_scan hscan (List.mem_singleton_self u)

/-- Each token of a source is the longest match at its place, and its text alone, whatever stands
around it and wherever it is found, decides what it is. -/
theorem scan_longest (h : scan mode source = .ok tokens) (ht : t ∈ tokens.body) :
    scan .strict t.lexeme
      = .ok ⟨[⟨t.content, t.lexeme, .start⟩], ⟨.eof, [], .behind t.lexeme⟩⟩ ∧
    (∃ before rest, source = before ++ (t.lexeme ++ rest) ∧ t.position = .behind before ∧
      ∀ longer, longer <+: t.lexeme ++ rest → t.lexeme.length < longer.length →
        ¬ ∃ u eof, scan .strict longer = .ok ⟨[u], eof⟩ ∧ u.lexeme = longer) ∧
    (∀ mode' source' tokens', scan mode' source' = .ok tokens' →
      ∀ u ∈ tokens'.body, u.lexeme = t.lexeme → u.content = t.content) ∧
    (∀ value, t.content = .string value → t.lexeme = '"' :: (value ++ ['"']) ∧ '"' ∉ value) ∧
    (IsName t.lexeme → (∀ k, t.content = .keyword k ↔ Keyword.ofText? t.lexeme = some k) ∧
      (t.content = .identifier ↔ Keyword.ofText? t.lexeme = none)) := by
  have hlexeme := lexeme_of_scan h ht
  refine ⟨scan_lexeme hlexeme .strict, ?_, ?_, ?_, hlexeme.content_of_isName⟩
  · obtain ⟨before, rest, hsource, hposition, hpiece⟩ :=
      piece_of_mem_segments (mem_segments_of_scan h ht)
    refine ⟨before, rest, hsource, ?_, fun longer hlonger hlength => ?_⟩
    · rw [← Position.after_start]
      exact hposition
    · exact hpiece.longest.not_scan hlonger hlength
  · intro mode' source' tokens' h' u hu hequal
    have hlexeme' := lexeme_of_scan h' hu
    rw [hequal] at hlexeme'
    exact hlexeme'.content_unique hlexeme
  · intro value hvalue
    rw [hvalue] at hlexeme
    exact hlexeme.string_inv

/-- In `!==or1` the first token takes the first equals sign but not the second one. -/
theorem scan_longest_bangEqual :
    scan .strict "!==or1".toList = .ok ⟨[⟨.symbol .bangEqual, "!=".toList, ⟨1, 1⟩⟩,
        ⟨.symbol .equal, "=".toList, ⟨1, 3⟩⟩, ⟨.identifier, "or1".toList, ⟨1, 4⟩⟩],
      ⟨.eof, [], ⟨1, 7⟩⟩⟩ ∧
    scan .strict "!=".toList
      = .ok ⟨[⟨.symbol .bangEqual, "!=".toList, .start⟩], ⟨.eof, [], .behind "!=".toList⟩⟩ ∧
    ∃ before rest, "!==or1".toList = before ++ ("!=".toList ++ rest) ∧
      (⟨1, 1⟩ : Position) = .behind before ∧
      ∀ longer, longer <+: "!=".toList ++ rest → "!=".toList.length < longer.length →
        ¬ ∃ u eof, scan .strict longer = .ok ⟨[u], eof⟩ ∧ u.lexeme = longer := by
  have h : scan .strict "!==or1".toList = .ok ⟨[⟨.symbol .bangEqual, "!=".toList, ⟨1, 1⟩⟩,
        ⟨.symbol .equal, "=".toList, ⟨1, 3⟩⟩, ⟨.identifier, "or1".toList, ⟨1, 4⟩⟩],
      ⟨.eof, [], ⟨1, 7⟩⟩⟩ := by decide +kernel
  obtain ⟨halone, hplace, -⟩ := scan_longest h List.mem_cons_self
  exact ⟨h, halone, hplace⟩

end LoxReader
