import LoxReader.Place
import LoxReader.Proofs.Lexical.Tiling

/-!
# Places cut a source in two

A place lies between the characters that have been passed and those ahead. The former give its line
and column, the latter are what is read there, and moving on passes some of them. This holds of all
places that are kept on a source, however they are moved and copied.
-/

namespace LoxReader

/-- A point in a text: the characters before it and those behind it. -/
structure Split where
  passed : Text
  ahead : Text
  deriving DecidableEq, Repr

namespace Place

/-- What may be done at a place. -/
inductive Operation where
  | next
  | peek
  | peekSecond
  | skip (c : Char)
  | skipWhile (p : Char → Bool)

/-- What is learned by it: a character if there is one, whether one has been skipped, or nothing. -/
inductive Answer where
  | character (c? : Option Char)
  | skipped (b : Bool)
  | nothing
  deriving DecidableEq, Repr

/-- The answer of an operation, and the place where it ends. -/
def Operation.run (a : Place) : Operation → Answer × Place
  | next        => (.character a.peek?, a.next)
  | peek        => (.character a.peek?, a)
  | peekSecond  => (.character a.peekSecond?, a)
  | skip c      =>
    match a.skip? c with
    | some b => (.skipped true, b)
    | none   => (.skipped false, a)
  | skipWhile p => (.nothing, a.skipWhile p)

/-- The places that are kept on a source: its start, and what becomes of it where one of them is
moved by an operation or kept a second time. -/
inductive Kept (source : Text) : List Place → Prop where
  | start : Kept source [.start source]
  | move {front back : List Place} {a : Place} (o : Operation)
      (h : Kept source (front ++ a :: back)) : Kept source (front ++ (o.run a).2 :: back)
  | copy {front back : List Place} {a : Place} (h : Kept source (front ++ a :: back)) :
      Kept source (front ++ a :: back ++ [a])

/-- What an operation does at a point in a text: its answer, and the point where it ends. -/
inductive Leads : Operation → Split → Answer → Split → Prop where
  | next {passed ahead : Text} {c : Char} :
      Leads .next ⟨passed, c :: ahead⟩ (.character (some c)) ⟨passed ++ [c], ahead⟩
  | nextAtEnd {passed : Text} : Leads .next ⟨passed, []⟩ (.character none) ⟨passed, []⟩
  | peek {s : Split} : Leads .peek s (.character s.ahead[0]?) s
  | peekSecond {s : Split} : Leads .peekSecond s (.character s.ahead[1]?) s
  | skip {passed ahead : Text} {c : Char} :
      Leads (.skip c) ⟨passed, c :: ahead⟩ (.skipped true) ⟨passed ++ [c], ahead⟩
  | stay {s : Split} {c : Char} (h : s.ahead.head? ≠ some c) :
      Leads (.skip c) s (.skipped false) s
  | skipWhile {passed run ahead : Text} {p : Char → Bool} (hrun : ∀ c ∈ run, p c)
      (hlongest : ∀ longer, longer <+: run ++ ahead → (∀ c ∈ longer, p c) → longer <+: run) :
      Leads (.skipWhile p) ⟨passed, run ++ ahead⟩ .nothing ⟨passed ++ run, ahead⟩

end Place

/-- The place at a point in a text. -/
def Split.place (s : Split) : Place := ⟨s.passed.length, .behind s.passed, s.ahead⟩

variable {source : Text} {places : List Place} {a : Place}

namespace Split

variable {ahead : Text} {c : Char} {p : Char → Bool}

/-! ### Moving on by one operation -/

lemma next_place (passed ahead : Text) (c : Char) :
    (place ⟨passed, c :: ahead⟩).next = place ⟨passed ++ [c], ahead⟩ := by
  simp [place, Place.next, Position.behind_append_singleton]

lemma next_place_nil (passed : Text) : (place ⟨passed, []⟩).next = place ⟨passed, []⟩ := rfl

lemma skip?_place (passed ahead : Text) (c : Char) :
    (place ⟨passed, c :: ahead⟩).skip? c = some (place ⟨passed ++ [c], ahead⟩) := by
  have hpeek : (place ⟨passed, c :: ahead⟩).peek? = some c := rfl
  rw [Place.skip?, if_pos hpeek, next_place]

lemma skip?_place_of_ne {s : Split} (h : s.ahead.head? ≠ some c) : s.place.skip? c = none := by
  rw [Place.skip?, if_neg]
  rwa [Place.peek?, ← List.head?_eq_getElem?]

lemma skipWhile_place (s : Split) (p : Char → Bool) :
    s.place.skipWhile p = place ⟨s.passed ++ s.ahead.takeWhile p, s.ahead.dropWhile p⟩ := by
  simp [place, Place.skipWhile, Position.after_behind]

lemma prefix_takeWhile {longer : Text} (h : longer <+: ahead) (hlonger : ∀ c ∈ longer, p c) :
    longer <+: ahead.takeWhile p := by
  obtain ⟨left, rfl⟩ := h
  rw [List.takeWhile_append_of_pos hlonger]
  exact List.prefix_append longer (left.takeWhile p)

/-- An operation at the place of a point leads where it leads at this point. -/
lemma run_leads (s : Split) (o : Place.Operation) :
    ∃ t, Place.Leads o s (o.run s.place).1 t ∧ (o.run s.place).2 = t.place := by
  obtain ⟨passed, ahead⟩ := s
  cases o with
  | next =>
    cases ahead with
    | nil => exact ⟨_, .nextAtEnd, next_place_nil passed⟩
    | cons c ahead => exact ⟨_, .next, next_place passed ahead c⟩
  | peek => exact ⟨_, .peek, rfl⟩
  | peekSecond => exact ⟨_, .peekSecond, rfl⟩
  | skip c =>
    by_cases hc : ahead.head? = some c
    · obtain ⟨ahead, rfl⟩ := List.head?_eq_some_iff.mp hc
      rw [Place.Operation.run, skip?_place]
      exact ⟨_, .skip, rfl⟩
    · rw [Place.Operation.run, skip?_place_of_ne hc]
      exact ⟨_, .stay hc, rfl⟩
  | skipWhile p =>
    have hlongest : ∀ longer, longer <+: ahead.takeWhile p ++ ahead.dropWhile p →
        (∀ c ∈ longer, p c) → longer <+: ahead.takeWhile p := by
      rw [List.takeWhile_append_dropWhile]
      exact fun longer h hlonger => prefix_takeWhile h hlonger
    have hleads : Place.Leads (.skipWhile p) ⟨passed, ahead.takeWhile p ++ ahead.dropWhile p⟩
        .nothing ⟨passed ++ ahead.takeWhile p, ahead.dropWhile p⟩ :=
      .skipWhile (fun c hc => List.mem_takeWhile_imp hc) hlongest
    rw [List.takeWhile_append_dropWhile] at hleads
    exact ⟨_, hleads, skipWhile_place _ p⟩

end Split

namespace Place

/-! ### Moving on again and again -/

lemma Leads.append_eq {o : Operation} {s t : Split} {answer : Answer} (h : Leads o s answer t) :
    t.passed ++ t.ahead = s.passed ++ s.ahead := by
  cases h with
  | peek | peekSecond | stay | nextAtEnd => rfl
  | next | skip | skipWhile => simp

/-- The places that are kept are places of points in the source. -/
lemma Kept.exists_split (h : Kept source places) (ha : a ∈ places) :
    ∃ s : Split, s.passed ++ s.ahead = source ∧ a = s.place := by
  induction h generalizing a with
  | start =>
    rw [List.mem_singleton] at ha
    exact ⟨⟨[], source⟩, rfl, ha⟩
  | @move front back b o _ ih =>
    rcases List.mem_append.mp ha with ha | ha
    · exact ih (List.mem_append_left _ ha)
    rcases List.mem_cons.mp ha with rfl | ha
    · obtain ⟨s, hs, rfl⟩ := ih (a := b) (by simp)
      obtain ⟨t, hleads, hplace⟩ := s.run_leads o
      exact ⟨t, hleads.append_eq.trans hs, hplace⟩
    · exact ih (by simp [ha])
  | @copy front back b _ ih =>
    rcases List.mem_append.mp ha with ha | ha
    · exact ih ha
    · rw [List.mem_singleton] at ha
      exact ih (by simp [ha])

/-- Every place that is kept on a source lies at a point of it: line and column count the line feeds
and characters passed, the end is where nothing lies ahead, and each operation answers and moves as
it does at this point. -/
theorem kept_leads (h : Kept source places) (ha : a ∈ places) :
    ∃ s : Split, source = s.passed ++ s.ahead ∧ a = s.place ∧
      a.position.line = 1 + s.passed.count '\n' ∧
      a.position.column = 1 + (s.passed.reverse.takeWhile (· ≠ '\n')).length ∧
      (a.isAtEnd ↔ s.ahead = []) ∧
      ∀ o : Operation, ∃ t, Leads o s (o.run a).1 t ∧ (o.run a).2 = t.place := by
  obtain ⟨s, hsource, rfl⟩ := h.exists_split ha
  refine ⟨s, hsource.symm, rfl, rfl, rfl, ?_, s.run_leads⟩
  rw [isAtEnd, List.isEmpty_iff]
  rfl

/-- A copy that stays in front of a line feed while the other place passes it. -/
theorem kept_leads_lineFeed :
    Kept "a\nb".toList [⟨3, ⟨2, 2⟩, []⟩, ⟨1, ⟨1, 2⟩, ['\n', 'b']⟩] ∧
    ∃ s : Split, "a\nb".toList = s.passed ++ s.ahead ∧ ⟨3, ⟨2, 2⟩, []⟩ = s.place ∧
      2 = 1 + s.passed.count '\n' ∧
      2 = 1 + (s.passed.reverse.takeWhile (· ≠ '\n')).length ∧
      s.ahead = [] ∧
      ∃ t, Leads .next s (.character none) t ∧ ⟨3, ⟨2, 2⟩, []⟩ = t.place := by
  have hstart : Kept "a\nb".toList ([] ++ .start "a\nb".toList :: []) := .start
  have hnext : Kept "a\nb".toList ([] ++ ⟨1, ⟨1, 2⟩, ['\n', 'b']⟩ :: []) := hstart.move .next
  have hcopy : Kept "a\nb".toList
      ([] ++ ⟨1, ⟨1, 2⟩, ['\n', 'b']⟩ :: [⟨1, ⟨1, 2⟩, ['\n', 'b']⟩]) := hnext.copy
  have hmoved : Kept "a\nb".toList [⟨3, ⟨2, 2⟩, []⟩, ⟨1, ⟨1, 2⟩, ['\n', 'b']⟩] :=
    hcopy.move (.skipWhile fun _ => true)
  obtain ⟨s, hsource, hplace, hline, hcolumn, hend, hleads⟩ := kept_leads hmoved List.mem_cons_self
  exact ⟨hmoved, s, hsource, hplace, hline, hcolumn, hend.mp rfl, hleads .next⟩

end Place

end LoxReader
