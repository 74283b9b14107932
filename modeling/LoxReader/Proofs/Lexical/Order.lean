import LoxReader.Proofs.Lexical.Piece
import Mathlib.Data.List.Pairwise

/-!
# The order of positions

Every character moves the position on. So the segments of a source come in the order of their
positions, and no two of them have a character at the same position.
-/

namespace LoxReader

namespace Position

/-- On an earlier line, or in an earlier column of the same line. -/
def Before (p q : Position) : Prop := p.line < q.line ∨ p.line = q.line ∧ p.column < q.column

variable {p q r : Position}

lemma Before.trans (h : p.Before q) (h' : q.Before r) : p.Before r := by
  simp only [Before] at *
  omega

lemma Before.ne (h : p.Before q) : p ≠ q := by
  rintro rfl
  simp only [Before] at h
  omega

lemma before_next (p : Position) (c : Char) : p.Before (p.next c) := by
  rw [next]
  split
  · exact Or.inl (Nat.lt_succ_self _)
  · exact Or.inr ⟨rfl, Nat.lt_succ_self _⟩

lemma before_after (p : Position) {t : Text} (ht : t ≠ []) : p.Before (p.after t) := by
  induction t generalizing p with
  | nil => exact absurd rfl ht
  | cons c t ih =>
    rw [after_cons]
    by_cases hnil : t = []
    · rw [hnil]
      exact p.before_next c
    · exact (p.before_next c).trans (ih (p.next c) hnil)

end Position

/-- One of the characters of the segment stands at this position. -/
def Segment.Covers (s : Segment) (p : Position) : Prop :=
  ∃ front c back, s.text = front ++ c :: back ∧ p = s.position.after front

variable {p : Position} {source : Text} {s t : Segment}

lemma Segment.covers_position (h : s.text ≠ []) : s.Covers s.position := by
  obtain ⟨c, back, htext⟩ := List.exists_cons_of_ne_nil h
  exact ⟨[], c, back, htext, rfl⟩

lemma Segment.Covers.not_before {q : Position} (h : s.Covers q) : ¬ q.Before s.position := by
  obtain ⟨front, c, back, -, rfl⟩ := h
  intro hlt
  by_cases hfront : front = []
  · subst hfront
    exact hlt.ne rfl
  · exact (hlt.trans (s.position.before_after hfront)).ne rfl

/-- All that a segment covers lies before the segments behind it. -/
lemma segments_pairwise (p : Position) (source : Text) :
    (segments p source).Pairwise fun s t => ∀ q, s.Covers q → q.Before t.position := by
  fun_induction segments p source with
  | case1 => exact .nil
  | case2 p c rest first text ih =>
    refine .cons ?_ ih
    rintro t ht q ⟨front, d, back, htext, rfl⟩
    obtain ⟨gap, -, -, hposition, -⟩ := piece_of_mem_segments ht
    have hbehind : t.position = (p.after front).after (d :: back ++ gap) := by
      rw [hposition, ← Position.after_append, ← Position.after_append, ← List.append_assoc,
        ← htext]
    rw [hbehind]
    exact Position.before_after _ (by simp)

/-- No position is covered twice. -/
lemma eq_of_covers {q : Position} (hs : s ∈ segments p source) (ht : t ∈ segments p source)
    (hsq : s.Covers q) (htq : t.Covers q) : s = t := by
  by_contra hne
  have hdisjoint : (segments p source).Pairwise fun s t => ¬ (s.Covers q ∧ t.Covers q) := by
    refine (segments_pairwise p source).imp ?_
    rintro s t hbefore ⟨hs, ht⟩
    exact ht.not_before (hbefore q hs)
  have hsymm : Std.Symm fun s t : Segment => ¬ (s.Covers q ∧ t.Covers q) :=
    ⟨fun _ _ h hst => h hst.symm⟩
  exact hdisjoint.forall hs ht hne ⟨hsq, htq⟩

end LoxReader
