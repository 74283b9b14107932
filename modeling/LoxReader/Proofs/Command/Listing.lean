import LoxReader.Proofs.Text.Escapes
import LoxReader.Token.Listing
import Mathlib.Data.List.Forall2

/-!
# Lines of a listing

Whatever characters a token holds, its entry in a listing is one line: the line feeds of its lexeme
are escaped, and nothing else in the entry has one but its end.
-/

namespace LoxReader

/-! ### Texts without a line feed -/

lemma lineFeed_not_mem_toDigits {base : Nat} (hbase : 1 < base) (n : Nat) :
    '\n' ∉ Nat.toDigits base n :=
  not_mem_toDigits hbase (fun n => n.digitChar_ne '\n' rfl) n

lemma lineFeed_not_mem_ofNat (n : Nat) : '\n' ∉ Text.ofNat n :=
  lineFeed_not_mem_toDigits (by decide) n

lemma lineFeed_not_mem_escape (c : Char) : '\n' ∉ Text.escape c := by
  unfold Text.escape
  split_ifs with h₀ h₁ h₂ hfeed h₄ h₅ hprintable
  all_goals try decide
  · simpa using Ne.symm hfeed
  · simp [lineFeed_not_mem_toDigits]

lemma lineFeed_not_mem_quoted (t : Text) : '\n' ∉ t.quoted := by
  simp [Text.quoted, lineFeed_not_mem_escape]

/-- The name of a kind is a word. -/
lemma isAlpha_of_mem_name (k : Kind) : ∀ c ∈ k.name.toList, c.isAlpha := by
  have hall : k.name.toList.all Char.isAlpha := by
    match k with
    | .identifier | .string | .number | .eof => decide
    | .symbol s => cases s <;> decide
    | .keyword k => cases k <;> decide
  exact List.all_eq_true.mp hall

lemma not_mem_name (k : Kind) {c : Char} (hc : c.isAlpha = false) : c ∉ k.name.toList := by
  intro hmem
  rw [isAlpha_of_mem_name k c hmem] at hc
  cases hc

/-! ### Entries -/

namespace Token

/-- What a listing has about a token, without the end of the line. -/
def entry (t : Token) : Text :=
  List.leftpad 4 ' ' (Text.ofNat t.position.line)
    ++ ':' :: List.rightpad 4 ' ' (Text.ofNat t.position.column)
    ++ ' ' :: List.rightpad 13 ' ' t.kind.name.toList
    ++ ' ' :: t.lexeme.quoted

lemma listingLine_eq (t : Token) : t.listingLine = t.entry ++ ['\n'] := rfl

lemma lineFeed_not_mem_entry (t : Token) : '\n' ∉ t.entry := by
  have hname : '\n' ∉ t.kind.name.toList := not_mem_name t.kind (by decide)
  simp [entry, lineFeed_not_mem_ofNat, hname, lineFeed_not_mem_quoted]

end Token

lemma Tokens.listing_eq (tokens : Tokens) :
    tokens.listing = tokens.toList.flatMap fun t => t.entry ++ ['\n'] := by
  simp only [listing, ← Token.listingLine_eq]

end LoxReader
