import LoxReader.Proofs.Safety.Access
import LoxReader.Proofs.Lexical.Order

/-!
# Slices between places

Offsets are counted in bytes, columns in characters, and lines in line feeds. They agree on which of
two places of a source comes first: each character takes a byte at least, and moves the position on.
So the text between two places can be sliced just if they are in order, and slices add up.
-/

namespace LoxReader

variable {source text : Text}

namespace Text

lemma size_pos (h : text ≠ []) : 0 < text.size := by
  obtain ⟨c, rest, rfl⟩ := List.exists_cons_of_ne_nil h
  have hsize : size (c :: rest) = c.utf8Size + size rest := by simp [size, String.ofList_cons]
  have hc := c.utf8Size_pos
  omega

lemma slice?_of_lt {first last : Nat} (h : last < first) : text.slice? first last = none :=
  dif_neg fun ⟨_, _, hle⟩ => absurd hle (Nat.not_le.mpr h)

end Text

lemma Position.behind_before (front : Text) (h : text ≠ []) :
    (behind front).Before (behind (front ++ text)) := by
  rw [← after_behind]
  exact before_after _ h

namespace Split

variable {s t u : Split} {text' : Text}

/-- The text between two points: the later one has passed it, and the earlier one has it ahead. -/
structure Between (s : Split) (text : Text) (t : Split) : Prop where
  passed : t.passed = s.passed ++ text
  ahead : s.ahead = text ++ t.ahead

/-! ### Points in order -/

lemma Between.append (h : Between s text t) (h' : Between t text' u) :
    Between s (text ++ text') u :=
  ⟨by rw [h'.passed, h.passed, List.append_assoc], by rw [h.ahead, h'.ahead, List.append_assoc]⟩

lemma Between.length (h : Between s text t) :
    s.passed.length + text.length = t.passed.length := by
  rw [h.passed, List.length_append]

lemma Between.ne_nil (h : Between s text t) (hlt : s.passed.length < t.passed.length) :
    text ≠ [] := by
  rintro rfl
  exact hlt.ne h.length

lemma Between.eq (h : Between s [] t) : s = t := by
  obtain ⟨passed, ahead⟩ := s
  obtain ⟨passed', ahead'⟩ := t
  obtain ⟨hpassed, hahead⟩ := h
  simp_all

lemma Between.before (h : Between s text t) (htext : text ≠ []) :
    s.place.position.Before t.place.position := by
  simp only [place, h.passed]
  exact Position.behind_before s.passed htext

/-- Of two points in a source, the one that has passed less has all ahead that the other one has
passed in addition. -/
lemma exists_between (hs : s.passed ++ s.ahead = source) (ht : t.passed ++ t.ahead = source)
    (h : s.passed.length ≤ t.passed.length) : ∃ text, Between s text t := by
  have hprefix : s.passed <+: t.passed :=
    List.prefix_of_prefix_length_le (hs ▸ List.prefix_append _ _) (ht ▸ List.prefix_append _ _) h
  obtain ⟨text, htext⟩ := hprefix
  refine ⟨text, htext.symm, ?_⟩
  rw [← ht, ← htext, List.append_assoc] at hs
  exact List.append_cancel_left hs

/-! ### What is sliced between them -/

lemma Between.sliceUntil (h : Between s text t) (ht : t.passed ++ t.ahead = source) :
    Guarded.sliceUntil source s.place t.place = some text := by
  have hsource : source = s.passed ++ text ++ t.ahead := by rw [← h.passed, ht]
  have hplace := Guarded.sliceUntil_place hsource
  rwa [← h.ahead, ← h.passed] at hplace

lemma Between.textUntil? (h : Between s text t) : s.place.textUntil? t.place = some text := by
  have hoffset : t.place.offset - s.place.offset = text.length := by
    simp only [place, h.passed, List.length_append, Nat.add_sub_cancel_left]
  have hle : s.place.offset ≤ t.place.offset := Nat.le.intro h.length
  have hrest : s.place.rest = text ++ t.ahead := h.ahead
  rw [Place.textUntil?, if_pos hle, hoffset, hrest, List.take_left]

lemma sliceUntil_of_lt (hs : s.passed ++ s.ahead = source) (ht : t.passed ++ t.ahead = source)
    (h : t.passed.length < s.passed.length) :
    Guarded.sliceUntil source s.place t.place = none := by
  obtain ⟨back, hback⟩ := exists_between ht hs h.le
  have hsize := Text.size_pos (hback.ne_nil h)
  rw [Guarded.sliceUntil, Guarded.offset_place hs.symm, Guarded.offset_place ht.symm]
  apply Text.slice?_of_lt
  rw [hback.passed, Text.size_append]
  omega

/-- The text between two places of a source is sliced if they are in order. The offsets that this
takes are those in bytes, yet nothing changes if they are counted in characters. -/
lemma sliceUntil_eq_some_iff (hs : s.passed ++ s.ahead = source)
    (ht : t.passed ++ t.ahead = source) :
    Guarded.sliceUntil source s.place t.place = some text ↔ Between s text t := by
  refine ⟨fun h => ?_, fun h => h.sliceUntil ht⟩
  rcases Nat.lt_or_ge t.passed.length s.passed.length with hlt | hle
  · rw [sliceUntil_of_lt hs ht hlt] at h
    cases h
  · obtain ⟨between, hbetween⟩ := exists_between hs ht hle
    rw [hbetween.sliceUntil ht] at h
    cases h
    exact hbetween

lemma sliceUntil_place_eq (hs : s.passed ++ s.ahead = source)
    (ht : t.passed ++ t.ahead = source) :
    Guarded.sliceUntil source s.place t.place = s.place.textUntil? t.place := by
  rcases Nat.lt_or_ge t.passed.length s.passed.length with hlt | hle
  · have hnone : s.place.textUntil? t.place = none := if_neg (Nat.not_le.mpr hlt)
    rw [sliceUntil_of_lt hs ht hlt, hnone]
  · obtain ⟨between, hbetween⟩ := exists_between hs ht hle
    rw [hbetween.sliceUntil ht, hbetween.textUntil?]

lemma isSome_sliceUntil_iff (hs : s.passed ++ s.ahead = source)
    (ht : t.passed ++ t.ahead = source) :
    (Guarded.sliceUntil source s.place t.place).isSome ↔ s.passed.length ≤ t.passed.length := by
  rw [Option.isSome_iff_exists]
  constructor
  · rintro ⟨text, h⟩
    exact Nat.le.intro ((sliceUntil_eq_some_iff hs ht).mp h).length
  · intro hle
    obtain ⟨text, h⟩ := exists_between hs ht hle
    exact ⟨text, h.sliceUntil ht⟩

/-! ### Their positions -/

lemma lt_iff_before (hs : s.passed ++ s.ahead = source) (ht : t.passed ++ t.ahead = source) :
    s.passed.length < t.passed.length ↔ s.place.position.Before t.place.position := by
  constructor
  · intro hlt
    obtain ⟨text, h⟩ := exists_between hs ht hlt.le
    exact h.before (h.ne_nil hlt)
  · intro hbefore
    by_contra hle
    obtain ⟨text, h⟩ := exists_between ht hs (Nat.not_lt.mp hle)
    by_cases htext : text = []
    · subst htext
      rw [h.eq] at hbefore
      exact hbefore.ne rfl
    · exact (hbefore.trans (h.before htext)).ne rfl

lemma eq_of_position_eq (hs : s.passed ++ s.ahead = source) (ht : t.passed ++ t.ahead = source)
    (h : s.place.position = t.place.position) : s = t := by
  have hst : ¬ s.passed.length < t.passed.length := fun hlt =>
    ((lt_iff_before hs ht).mp hlt).ne h
  have hts : ¬ t.passed.length < s.passed.length := fun hlt =>
    ((lt_iff_before ht hs).mp hlt).ne h.symm
  obtain ⟨text, hbetween⟩ := exists_between hs ht (Nat.not_lt.mp hts)
  have hlength := hbetween.length
  have hnil : text = [] := List.length_eq_zero_iff.mp (by omega)
  subst hnil
  exact hbetween.eq

end Split

namespace Place

variable {a b c : Place}

/-- The text that has been passed on the way to a place. -/
def passed (source : Text) (a : Place) : Text := source.take a.offset

/-- A place that is kept on a source at some time. -/
def Reached (source : Text) (a : Place) : Prop := ∃ places, Kept source places ∧ a ∈ places

lemma Reached.start (source : Text) : Reached source (.start source) :=
  ⟨_, .start, List.mem_singleton_self _⟩

lemma Reached.move (h : Reached source a) (o : Operation) : Reached source (o.run a).2 := by
  obtain ⟨places, hkept, ha⟩ := h
  obtain ⟨front, back, rfl⟩ := List.append_of_mem ha
  exact ⟨_, hkept.move o, by simp⟩

lemma Reached.exists_split (h : Reached source a) :
    ∃ s : Split, s.passed ++ s.ahead = source ∧ a = s.place ∧ a.passed source = s.passed := by
  obtain ⟨places, hkept, ha⟩ := h
  obtain ⟨s, hs, rfl⟩ := hkept.exists_split ha
  refine ⟨s, hs, rfl, ?_⟩
  rw [passed, ← hs]
  exact List.take_left

/-- Slices and positions tell which of two places of a source comes first, and what has been passed
from one to the other: there is a slice just if the first place has passed no more than the second,
and this slice is the rest of what the second one has passed. Slices that meet are put together. A
place that has passed less is on an earlier line or in an earlier column of its line, so that the
position settles the place. -/
theorem sliceUntil_reached (ha : Reached source a) (hb : Reached source b)
    (hc : Reached source c) :
    a.passed source ++ a.rest = source ∧
    Guarded.sliceUntil source a b = a.textUntil? b ∧
    ((Guarded.sliceUntil source a b).isSome ↔
      (a.passed source).length ≤ (b.passed source).length) ∧
    (∀ text, Guarded.sliceUntil source a b = some text →
      a.passed source ++ text = b.passed source) ∧
    ((a.passed source).length ≤ (b.passed source).length →
      (b.passed source).length ≤ (c.passed source).length →
      ∃ first second, Guarded.sliceUntil source a b = some first ∧
        Guarded.sliceUntil source b c = some second ∧
        Guarded.sliceUntil source a c = some (first ++ second)) ∧
    ((a.passed source).length < (b.passed source).length ↔ a.position.Before b.position) ∧
    (a.position = b.position → a = b) := by
  obtain ⟨s, hs, rfl, hsp⟩ := ha.exists_split
  obtain ⟨t, ht, rfl, htp⟩ := hb.exists_split
  obtain ⟨u, hu, rfl, hup⟩ := hc.exists_split
  rw [hsp, htp, hup]
  refine ⟨hs, Split.sliceUntil_place_eq hs ht, Split.isSome_sliceUntil_iff hs ht, ?_, ?_,
    Split.lt_iff_before hs ht, fun h => congrArg Split.place (Split.eq_of_position_eq hs ht h)⟩
  · intro text h
    exact ((Split.sliceUntil_eq_some_iff hs ht).mp h).passed.symm
  · intro hst htu
    obtain ⟨first, hfirst⟩ := Split.exists_between hs ht hst
    obtain ⟨second, hsecond⟩ := Split.exists_between ht hu htu
    exact ⟨first, second, hfirst.sliceUntil ht, hsecond.sliceUntil hu,
      (hfirst.append hsecond).sliceUntil hu⟩

/-- A character of two bytes and a line feed lie between the first two places, and one of one byte
in front of the third. -/
theorem sliceUntil_reached_bytes :
    Reached "é\nb".toList ⟨0, ⟨1, 1⟩, "é\nb".toList⟩ ∧
    Reached "é\nb".toList ⟨2, ⟨2, 1⟩, ['b']⟩ ∧ Reached "é\nb".toList ⟨3, ⟨2, 2⟩, []⟩ ∧
    Guarded.sliceUntil "é\nb".toList ⟨0, ⟨1, 1⟩, "é\nb".toList⟩ ⟨2, ⟨2, 1⟩, ['b']⟩
      = some ['é', '\n'] ∧
    (∃ first second,
      Guarded.sliceUntil "é\nb".toList ⟨0, ⟨1, 1⟩, "é\nb".toList⟩ ⟨2, ⟨2, 1⟩, ['b']⟩ = some first ∧
      Guarded.sliceUntil "é\nb".toList ⟨2, ⟨2, 1⟩, ['b']⟩ ⟨3, ⟨2, 2⟩, []⟩ = some second ∧
      Guarded.sliceUntil "é\nb".toList ⟨0, ⟨1, 1⟩, "é\nb".toList⟩ ⟨3, ⟨2, 2⟩, []⟩
        = some (first ++ second)) ∧
    Position.Before ⟨1, 1⟩ ⟨2, 1⟩ := by
  have ha : Reached "é\nb".toList ⟨0, ⟨1, 1⟩, "é\nb".toList⟩ := .start _
  have hb : Reached "é\nb".toList ⟨2, ⟨2, 1⟩, ['b']⟩ := (ha.move .next).move .next
  have hc : Reached "é\nb".toList ⟨3, ⟨2, 2⟩, []⟩ := hb.move .next
  obtain ⟨-, htext, -, -, hslices, hbefore, -⟩ := sliceUntil_reached ha hb hc
  exact ⟨ha, hb, hc, htext, hslices (by decide) (by decide), hbefore.mp (by decide)⟩

end Place

end LoxReader
