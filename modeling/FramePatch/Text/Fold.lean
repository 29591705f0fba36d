import FramePatch.Text.Basic

/-!
# Names that differ in case only

Section names and keys are compared after folding the letters `A` to `Z`; other characters,
letters of other alphabets included, have to agree as they are. Folded equality is equality of
the folded texts, so it is an equivalence relation.
-/

namespace FramePatch.Text

/-- The text with `A` to `Z` in lower case. -/
def fold (t : Text) : Text := t.map Char.toLower

/-- Whether two texts agree up to the case of `A` to `Z`. -/
def sameFolded (a b : Text) : Bool := fold a == fold b

@[simp] theorem sameFolded_iff {a b : Text} : sameFolded a b ↔ fold a = fold b := by
  simp [sameFolded]

end FramePatch.Text
