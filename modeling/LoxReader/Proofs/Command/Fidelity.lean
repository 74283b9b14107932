import LoxReader.Proofs.Command.Writing
import LoxReader.Proofs.Lexical.Longest
import Mathlib.Data.List.Nodup

/-!
# Listings lose nothing

An entry shows the position of its token, its kind and its lexeme, however wide its columns get and
whatever the lexeme holds. What else a token of a source holds follows from these. So sources with
one listing have the same tokens.
-/

namespace LoxReader

variable {mode mode' : Mode} {source source' text text' rest rest' : Text} {tokens others : Tokens}
  {t u : Token} {n : ℕ}

/-! ### Columns -/

lemma leftpad_inj (h : ' ' ∉ text) (h' : ' ' ∉ text')
    (heq : List.leftpad n ' ' text = List.leftpad n ' ' text') : text = text' := by
  have hfilter {text : Text} (h : ' ' ∉ text) :
      (List.leftpad n ' ' text).filter (· ≠ ' ') = text := by
    rw [List.leftpad, List.filter_append, List.filter_replicate, if_neg (by simp),
      List.nil_append, List.filter_eq_self]
    exact forall_ne_of_not_mem h
  rw [← hfilter h, heq, hfilter h']

lemma rightpad_append_blank (n : ℕ) (text rest : Text) :
    List.rightpad n ' ' text ++ ' ' :: rest
      = text ++ ' ' :: (List.replicate (n - text.length) ' ' ++ rest) := by
  rw [List.rightpad, List.append_assoc, List.append_cons _ ' ' rest, ← List.replicate_succ',
    List.replicate_succ, List.cons_append]

/-- A column that is filled up with blanks ends at the first one. -/
lemma rightpad_append_inj (h : ' ' ∉ text) (h' : ' ' ∉ text')
    (heq : List.rightpad n ' ' text ++ ' ' :: rest = List.rightpad n ' ' text' ++ ' ' :: rest') :
    text = text' ∧ rest = rest' := by
  rw [rightpad_append_blank, rightpad_append_blank] at heq
  obtain ⟨rfl, hrest⟩ := append_cons_inj_of_not_mem h h' heq
  exact ⟨rfl, List.append_cancel_left hrest⟩

lemma Content.kind_eq_eof {content : Content} : content.kind = .eof ↔ content = .eof := by
  cases content <;> simp [kind]

namespace Kind

lemma mem_all (k : Kind) : k ∈ all := by
  match k with
  | .identifier | .string | .number | .eof => decide
  | .symbol s => cases s <;> decide
  | .keyword k => cases k <;> decide

lemma name_injective : Function.Injective name := by
  have hnodup : (all.map name).Nodup := by decide +kernel
  exact fun k l h => List.inj_on_of_nodup_map hnodup k.mem_all l.mem_all h

end Kind

/-! ### Entries -/

namespace Token

/-- An entry shows the position, the kind and the lexeme of its token, and nothing else. -/
lemma entry_eq_iff :
    t.entry = u.entry ↔ t.position = u.position ∧ t.kind = u.kind ∧ t.lexeme = u.lexeme := by
  have hnumber {c : Char} (hc : ∀ n : ℕ, n.digitChar ≠ c) (n : ℕ) : c ∉ Text.ofNat n :=
    not_mem_toDigits (by decide) hc n
  have hblank : ∀ n : ℕ, ' ' ∉ Text.ofNat n := hnumber fun n => n.digitChar_ne ' ' rfl
  have hcolon (n : ℕ) : ':' ∉ List.leftpad 4 ' ' (Text.ofNat n) := by
    have hdigits := hnumber (fun n => n.digitChar_ne ':' rfl) n
    simp [List.leftpad, hdigits]
  have hofNat : Function.Injective Text.ofNat := toDigits_injective (by decide) (by decide)
  constructor
  · intro h
    simp only [entry, List.append_assoc, List.cons_append] at h
    obtain ⟨hline, h⟩ := append_cons_inj_of_not_mem (hcolon _) (hcolon _) h
    obtain ⟨hcolumn, h⟩ := rightpad_append_inj (hblank _) (hblank _) h
    obtain ⟨hname, h⟩ :=
      rightpad_append_inj (not_mem_name _ (by decide)) (not_mem_name _ (by decide)) h
    have hline := hofNat (leftpad_inj (hblank _) (hblank _) hline)
    exact ⟨congrArg₂ Position.mk hline (hofNat hcolumn),
      Kind.name_injective (String.toList_inj.mp hname), Text.quoted_injective h⟩
  · rintro ⟨hposition, hkind, hlexeme⟩
    simp only [entry, hposition, hkind, hlexeme]

/-- This is a token of a source: its lexeme is one of its content, or it marks the end. -/
def Scanned (t : Token) : Prop := Lexeme t.content t.lexeme ∨ t.content = .eof

lemma Scanned.eq_of_entry (ht : t.Scanned) (hu : u.Scanned) (h : t.entry = u.entry) : t = u := by
  obtain ⟨hposition, hkind, hlexeme⟩ := entry_eq_iff.mp h
  have hcontent : t.content = u.content := by
    rcases ht with ht | ht
    · rcases hu with hu | hu
      · rw [hlexeme] at ht
        exact ht.content_unique hu
      · exact absurd (Content.kind_eq_eof.mp (hkind.trans (congrArg _ hu))) ht.ne_eof
    · exact ht.trans (Content.kind_eq_eof.mp (hkind.symm.trans (congrArg _ ht))).symm
  obtain ⟨content, lexeme, position⟩ := t
  obtain rfl : content = u.content := hcontent
  obtain rfl : lexeme = u.lexeme := hlexeme
  obtain rfl : position = u.position := hposition
  rfl

lemma scanned_of_scan (h : scan mode source = .ok tokens) (ht : t ∈ tokens.toList) :
    t.Scanned := by
  rcases List.mem_append.mp ht with ht | ht
  · exact .inl (lexeme_of_scan h ht)
  · rw [List.mem_singleton] at ht
    exact .inr (ht ▸ of_decide_eq_true (scan_terminated h).eof)

/-- Tokens of sources that are listed alike are the same. -/
lemma eq_of_map_entry {ts us : List Token} (hts : ∀ t ∈ ts, t.Scanned) (hus : ∀ u ∈ us, u.Scanned)
    (h : ts.map entry = us.map entry) : ts = us := by
  induction ts generalizing us with
  | nil => exact (List.map_eq_nil_iff.mp h.symm).symm
  | cons t ts ih =>
    obtain ⟨u, us, rfl, hentry, hrest⟩ := List.map_eq_cons_iff.mp h.symm
    rw [List.forall_mem_cons] at hts hus
    rw [hts.1.eq_of_entry hus.1 hentry.symm, ih hts.2 hus.2 hrest.symm]

end Token

/-! ### Listings -/

lemma Tokens.splitOn_listing (tokens : Tokens) :
    tokens.listing.splitOn '\n' = tokens.toList.map Token.entry ++ [[]] := by
  rw [listing_eq]
  induction tokens.toList with
  | nil => rfl
  | cons t ts ih =>
    rw [List.flatMap_cons, List.append_assoc, List.singleton_append,
      List.splitOn_append_cons_self_of_not_mem t.lineFeed_not_mem_entry, ih]
    rfl

lemma Tokens.toList_injective : Function.Injective toList := by
  rintro ⟨body, eof⟩ ⟨body', eof'⟩ h
  obtain ⟨rfl, rfl⟩ := List.append_singleton_inj.mp h
  rfl

/-- The listings that are written for two sources are the same exactly when the sources have the
same tokens. Each has one line for each token, whatever the tokens hold. -/
theorem Command.writeListing_eq_iff (h : scan mode source = .ok tokens)
    (h' : scan mode' source' = .ok others) (written : Text) :
    ((writeListing mode source).outcome written = (writeListing mode' source').outcome written ↔
      tokens = others) ∧
    ∃ text, (writeListing mode source).outcome written = (.ok (), written ++ text) ∧
      text.splitOn '\n' = tokens.toList.map Token.entry ++ [[]] := by
  refine ⟨?_, tokens.listing, outcome_writeListing_ok h written, tokens.splitOn_listing⟩
  rw [outcome_writeListing_ok h, outcome_writeListing_ok h']
  constructor
  · intro heq
    have hlisting : tokens.listing = others.listing :=
      List.append_cancel_left (congrArg Prod.snd heq)
    have hentries : tokens.toList.map Token.entry = others.toList.map Token.entry := by
      have hlines := tokens.splitOn_listing
      rw [hlisting, others.splitOn_listing] at hlines
      exact (List.append_cancel_right hlines).symm
    exact Tokens.toList_injective (Token.eq_of_map_entry (fun t => Token.scanned_of_scan h)
      (fun u => Token.scanned_of_scan h') hentries)
  · rintro rfl
    rfl

/-- A string with a line feed and one with the letters of its escape are listed differently. -/
theorem Command.writeListing_eq_iff_escape :
    scan .strict ['"', '\n', '"'] = .ok ⟨[⟨.string ['\n'], ['"', '\n', '"'], ⟨1, 1⟩⟩],
      ⟨.eof, [], ⟨2, 2⟩⟩⟩ ∧
    scan .lenient ['"', '\\', 'n', '"', '\n', '@'] = .ok ⟨[⟨.string ['\\', 'n'],
      ['"', '\\', 'n', '"'], ⟨1, 1⟩⟩], ⟨.eof, [], ⟨2, 2⟩⟩⟩ ∧
    (writeListing .strict ['"', '\n', '"']).outcome []
      ≠ (writeListing .lenient ['"', '\\', 'n', '"', '\n', '@']).outcome [] ∧
    ∃ text, (writeListing .strict ['"', '\n', '"']).outcome [] = (.ok (), text) ∧
      text.splitOn '\n' = ["   1:1    Str           \"\\\"\\n\\\"\"".toList,
        "   2:2    Eof           \"\"".toList, []] := by
  have h : scan .strict ['"', '\n', '"'] = .ok ⟨[⟨.string ['\n'], ['"', '\n', '"'], ⟨1, 1⟩⟩],
      ⟨.eof, [], ⟨2, 2⟩⟩⟩ := by decide +kernel
  have h' : scan .lenient ['"', '\\', 'n', '"', '\n', '@'] = .ok ⟨[⟨.string ['\\', 'n'],
      ['"', '\\', 'n', '"'], ⟨1, 1⟩⟩], ⟨.eof, [], ⟨2, 2⟩⟩⟩ := by decide +kernel
  obtain ⟨hiff, text, hwritten, hlines⟩ := writeListing_eq_iff h h' []
  refine ⟨h, h', fun heq => ?_, text, hwritten, ?_⟩
  · cases hiff.mp heq
  · rw [hlines]
    decide +kernel

end LoxReader
