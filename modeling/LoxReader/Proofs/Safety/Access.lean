import LoxReader.Proofs.Lexical.Longest
import LoxReader.Proofs.Place.Split

/-!
# Guarded access to a source

A text can be sliced by offsets in bytes, as they are in UTF-8. This goes wrong where the offsets
are out of order or out of range, and where one of them lies inside of a character. Between two
places of a source it does not go wrong, wherever they have been moved to.
-/

namespace LoxReader

/-- The difference of two numbers, unless it is negative. -/
def subtract? (m n : Nat) : Option Nat := if n ≤ m then some (m - n) else none

lemma subtract?_add (m n : Nat) : subtract? (m + n) n = some m := by
  rw [subtract?, if_pos (Nat.le_add_left n m), Nat.add_sub_cancel]

namespace Text

/-- How many bytes a text takes. -/
def size (t : Text) : Nat := (String.ofList t).utf8ByteSize

/-- The text between two offsets in bytes: they are in order and on boundaries of characters. -/
def slice? (t : Text) (first last : Nat) : Option Text :=
  if h : String.Pos.Raw.IsValid (.ofList t) ⟨first⟩ ∧ String.Pos.Raw.IsValid (.ofList t) ⟨last⟩ ∧
      first ≤ last then
    some (String.extract (String.pos _ _ h.1) (String.pos _ _ h.2.1)).toList
  else none

lemma size_append (t u : Text) : (t ++ u).size = t.size + u.size := by
  simp [size, String.ofList_append]

/-- The sizes of the texts that a text starts with are the boundaries of its characters. -/
lemma isValid_size (t u : Text) : String.Pos.Raw.IsValid (.ofList (t ++ u)) ⟨t.size⟩ := by
  rw [String.Pos.Raw.isValid_ofList]
  exact ⟨t.length, by simp [size]⟩

/-- Between the sizes of two texts that a text starts with lies what the longer one goes on with. -/
lemma slice?_append (t u v : Text) : (t ++ u ++ v).slice? t.size (t.size + u.size) = some u := by
  have hfirst := isValid_size t (u ++ v)
  have hlast := isValid_size (t ++ u) v
  rw [← List.append_assoc] at hfirst
  rw [size_append] at hlast
  have hextract : String.extract (String.pos _ _ hfirst) (String.pos _ _ hlast) = .ofList u := by
    rw [← String.toByteArray_inj, String.toByteArray_extract, String.offset_pos, String.offset_pos]
    simp only [String.ofList_append, String.toByteArray_append, ByteArray.append_assoc]
    -- The bytes in front are dropped first, and those behind are left off then.
    calc ((String.ofList t).toByteArray ++ ((String.ofList u).toByteArray
          ++ (String.ofList v).toByteArray)).extract (t.size + 0) (t.size + u.size)
      _ = ((String.ofList u).toByteArray ++ (String.ofList v).toByteArray).extract 0 u.size :=
        ByteArray.extract_append_size_add' String.size_toByteArray.symm
      _ = (String.ofList u).toByteArray :=
        ByteArray.extract_append_eq_left String.size_toByteArray.symm
  rw [slice?, dif_pos ⟨hfirst, hlast, Nat.le_add_right _ _⟩, hextract, String.toList_ofList]

example : slice? ['é'] 1 2 = none := by decide +kernel

end Text

/-- The number that a text is: digits, or digits on both sides of a point. -/
def Binary64.ofText? (t : Text) : Option Binary64 :=
  match t.takeWhile Char.isDigit, t.dropWhile Char.isDigit with
  | c :: digits, [] => some (.ofDecimal (.ofDigits (c :: digits) []))
  | c :: digits, '.' :: d :: fraction =>
    if (d :: fraction).all Char.isDigit then
      some (.ofDecimal (.ofDigits (c :: digits) (d :: fraction)))
    else none
  | _, _ => none

namespace Guarded

/-! ### Places -/

/-- The place behind the next character, if its line and column stay within their bound. -/
def next (source : Text) (a : Place) : Option Place :=
  let b := a.next
  if b.position.line ≤ 1 + source.length ∧ b.position.column ≤ 1 + source.length then some b
  else none

/-- Moves on if the next character is `c`, and tells whether it was. -/
def skip (source : Text) (c : Char) (a : Place) : Option (Bool × Place) :=
  if a.peek? = some c then do return (true, ← next source a) else return (false, a)

/-- Moves on by one character after the other as long as they satisfy `p` and there are turns. -/
def skipWhile (source : Text) (p : Char → Bool) : Nat → Place → Option Place
  | 0, _         => none
  | turns + 1, a =>
    match a.peek? with
    | some c => if p c then do skipWhile source p turns (← next source a) else return a
    | none   => return a

/-- How many bytes of the source lie before a place. -/
def offset (source : Text) (a : Place) : Option Nat := subtract? source.size a.rest.size

/-- The text of the source from one place to another. -/
def sliceUntil (source : Text) (a b : Place) : Option Text := do
  source.slice? (← offset source a) (← offset source b)

/-- The text of a string without its quotes, which take one byte each. -/
def unquote (lexeme : Text) : Option Text := do lexeme.slice? 1 (← subtract? lexeme.size 1)

variable {source before text ahead : Text} {c : Char} {p : Char → Bool}

/-! ### Moving on -/

/-- A text has no more lines than line feeds, and no line is longer than the text. -/
lemma behind_le (t : Text) :
    (Position.behind t).line ≤ 1 + t.length ∧ (Position.behind t).column ≤ 1 + t.length := by
  have hcolumn := (List.takeWhile_sublist (· ≠ '\n') (l := t.reverse)).length_le
  rw [List.length_reverse] at hcolumn
  exact ⟨Nat.add_le_add_left List.count_le_length 1, Nat.add_le_add_left hcolumn 1⟩

lemma next_place (h : source = before ++ c :: ahead) :
    next source (Split.place ⟨before, c :: ahead⟩) = some (Split.place ⟨before ++ [c], ahead⟩) := by
  obtain ⟨hline, hcolumn⟩ := behind_le (before ++ [c])
  have hlength : (before ++ [c]).length ≤ source.length := by simp [h]
  rw [next, Split.next_place]
  exact if_pos ⟨by simp only [Split.place]; omega, by simp only [Split.place]; omega⟩

lemma skip_place (h : source = before ++ c :: ahead) :
    skip source c (Split.place ⟨before, c :: ahead⟩)
      = some (true, Split.place ⟨before ++ [c], ahead⟩) := by
  have hpeek : (Split.place ⟨before, c :: ahead⟩).peek? = some c := rfl
  rw [skip, if_pos hpeek, next_place h]
  rfl

lemma skip_place_of_ne (h : ahead.head? ≠ some c) :
    skip source c (Split.place ⟨before, ahead⟩) = some (false, Split.place ⟨before, ahead⟩) := by
  rw [skip, if_neg]
  · rfl
  · rwa [Place.peek?, ← List.head?_eq_getElem?]

lemma skipWhile_place {turns : Nat} (h : source = before ++ ahead) (hturns : ahead.length < turns) :
    skipWhile source p turns (Split.place ⟨before, ahead⟩)
      = some (Split.place ⟨before ++ ahead.takeWhile p, ahead.dropWhile p⟩) := by
  induction turns generalizing before ahead with
  | zero => exact absurd hturns (Nat.not_lt_zero _)
  | succ turns ih =>
    cases ahead with
    | nil => simp [skipWhile, Place.peek?, Split.place]
    | cons c ahead =>
      have hpeek : (Split.place ⟨before, c :: ahead⟩).peek? = some c := rfl
      simp only [skipWhile, hpeek]
      by_cases hc : p c
      · have hsource : source = before ++ [c] ++ ahead := by simpa using h
        have hrest := ih hsource (Nat.lt_of_succ_lt_succ hturns)
        rw [if_pos hc, next_place h, List.takeWhile_cons_of_pos hc, List.dropWhile_cons_of_pos hc]
        simpa using hrest
      · rw [if_neg hc, List.takeWhile_cons_of_neg hc, List.dropWhile_cons_of_neg hc,
          List.append_nil]
        rfl

/-- A text starts with a longest run of characters that satisfy `p`. -/
lemma exists_run (p : Char → Bool) (text : Text) :
    ∃ run ahead, text = run ++ ahead ∧ (∀ c ∈ run, p c) ∧ ∀ c ∈ ahead.head?, p c = false :=
  ⟨text.takeWhile p, text.dropWhile p, List.takeWhile_append_dropWhile.symm,
    fun _ hc => List.mem_takeWhile_imp hc, head?_dropWhile p text⟩

/-! ### Texts of the source -/

lemma offset_place (h : source = before ++ ahead) :
    offset source (Split.place ⟨before, ahead⟩) = some before.size := by
  rw [offset, h, Text.size_append]
  exact subtract?_add before.size ahead.size

lemma sliceUntil_place (h : source = before ++ text ++ ahead) :
    sliceUntil source (Split.place ⟨before, text ++ ahead⟩) (Split.place ⟨before ++ text, ahead⟩)
      = some text := by
  have hstart : source = before ++ (text ++ ahead) := by rw [h, List.append_assoc]
  rw [sliceUntil, offset_place hstart, offset_place h, Text.size_append, h]
  exact Text.slice?_append before text ahead

lemma unquote_append (value : Text) : unquote (['"'] ++ value ++ ['"']) = some value := by
  have hquote : Text.size ['"'] = 1 := by decide
  have hslice := Text.slice?_append ['"'] value ['"']
  rw [hquote] at hslice
  rw [unquote, Text.size_append, Text.size_append, hquote, subtract?_add]
  exact hslice

/-- A text is read as a number exactly when it is the lexeme of this number. -/
lemma ofText?_eq_some_iff {x : Binary64} :
    Binary64.ofText? text = some x ↔ Lexeme (.number x) text := by
  constructor
  · intro h
    have htext := List.takeWhile_append_dropWhile (p := Char.isDigit) (l := text)
    have hwhole : ∀ d ∈ text.takeWhile Char.isDigit, d.isDigit :=
      fun d hd => List.mem_takeWhile_imp hd
    simp only [Binary64.ofText?] at h
    split at h
    next c digits hdigits hrest =>
      cases h
      rw [hdigits, List.forall_mem_cons] at hwhole
      rw [← htext, hdigits, hrest, List.append_nil]
      exact .integer hwhole.1 hwhole.2
    next c digits d fraction hdigits hrest =>
      split_ifs at h with hfraction
      cases h
      rw [hdigits, List.forall_mem_cons] at hwhole
      rw [List.all_eq_true, List.forall_mem_cons] at hfraction
      rw [← htext, hdigits, hrest]
      exact .fraction hwhole.1 hwhole.2 hfraction.1 hfraction.2
    next => cases h
  · intro h
    cases h with
    | @integer c digits hc hdigits =>
      have hwhole : ∀ d ∈ c :: digits, d.isDigit := List.forall_mem_cons.mpr ⟨hc, hdigits⟩
      rw [Binary64.ofText?, List.takeWhile_eq_self_iff.mpr hwhole,
        List.dropWhile_eq_nil_iff.mpr hwhole]
    | @fraction c d digits fraction hc hdigits hd hfraction =>
      have hwhole : ∀ d ∈ c :: digits, d.isDigit := List.forall_mem_cons.mpr ⟨hc, hdigits⟩
      have hpoint : ∀ e ∈ ('.' :: d :: fraction).head?, e.isDigit = false := by
        rintro e ⟨⟩
        rfl
      have hall : (d :: fraction).all Char.isDigit :=
        List.all_eq_true.mpr (List.forall_mem_cons.mpr ⟨hd, hfraction⟩)
      rw [Binary64.ofText?, ← List.cons_append, takeWhile_append_of_stop hwhole hpoint,
        dropWhile_append_of_stop hwhole hpoint]
      exact if_pos hall

end Guarded

end LoxReader
