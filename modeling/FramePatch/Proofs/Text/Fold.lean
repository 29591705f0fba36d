import FramePatch.Text.Blank
import FramePatch.Text.Fold

/-!
# Folding a text

What folding a text does not change. A statement about folded characters has to be checked for the
twenty-six capital letters only (`capitals_or_same`). So blanks stay blanks (`isBlank_toLower`), a
character that is no letter is found where it was (`toLower_eq_iff`), and blanks come off a folded
text as they come off the text (`trimLeft_fold`).
-/

namespace FramePatch.Text

/-- What holds of the capital letters, and of what folding leaves as it is, holds of all
characters. -/
theorem capitals_or_same {P : Char → Prop} (capital : ∀ n < 26, P (Char.ofNat (65 + n)))
    (same : ∀ c : Char, c.toLower = c → P c) (c : Char) : P c := by
  by_cases h : c.val ≥ 'A'.val ∧ c.val ≤ 'Z'.val
  · have hends : 'A'.val.toNat = 65 ∧ 'Z'.val.toNat = 90 := ⟨rfl, rfl⟩
    simp only [ge_iff_le, UInt32.le_iff_toNat_le, Char.toNat_val] at h hends
    have hletter : P (Char.ofNat (65 + (c.toNat - 65))) := capital _ (by omega)
    have hnumber : 65 + (c.toNat - 65) = c.toNat := by omega
    rw [hnumber, Char.ofNat_toNat] at hletter
    exact hletter
  · exact same c (dif_neg h)

theorem isBlank_toLower (c : Char) : isBlank c.toLower = isBlank c := by
  refine capitals_or_same (P := fun c => isBlank c.toLower = isBlank c) (by decide) ?_ c
  intro c hsame
  rw [hsame]

/-- A character that is no letter is found where it was. -/
theorem toLower_eq_iff {k : Char} (h : k.isAlpha = false) (c : Char) : c.toLower = k ↔ c = k := by
  refine capitals_or_same (P := fun c => c.toLower = k ↔ c = k) ?_ ?_ c
  · intro n hn
    have hletters : ∀ n < 26,
        (Char.ofNat (65 + n)).isAlpha = true ∧ (Char.ofNat (65 + n)).toLower.isAlpha = true := by
      decide
    obtain ⟨hcapital, hfolded⟩ := hletters n hn
    constructor
    · rintro rfl
      exact nomatch hfolded.symm.trans h
    · rintro rfl
      exact nomatch hcapital.symm.trans h
  · intro c hsame
    rw [hsame]

/-- Blanks come off a folded text as they come off the text. -/
theorem trimLeft_fold (t : Text) : trimLeft (fold t) = fold (trimLeft t) := by
  induction t with
  | nil => rfl
  | cons c rest ih =>
    show trimLeft (c.toLower :: fold rest) = fold (trimLeft (c :: rest))
    simp only [trimLeft, List.dropWhile_cons, isBlank_toLower] at ih ⊢
    split
    · exact ih
    · rfl

end FramePatch.Text
