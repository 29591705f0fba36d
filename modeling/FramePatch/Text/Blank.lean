import FramePatch.Text.Basic

/-!
# Blank characters

The characters with the Unicode property `White_Space`, and the removal of blank ends. A
byte-order mark is not blank.

`isBlank_of_isWhitespace`: the class holds every character of the four-character class of `Char`.
-/

namespace FramePatch.Text

/-- The ranges of code points with the property `White_Space`, ends included. -/
def blankRanges : List (Nat × Nat) :=
  [(0x9, 0xD), (0x20, 0x20), (0x85, 0x85), (0xA0, 0xA0), (0x1680, 0x1680), (0x2000, 0x200A),
    (0x2028, 0x2029), (0x202F, 0x202F), (0x205F, 0x205F), (0x3000, 0x3000)]

/-- Whether a character has the property `White_Space`. -/
def isBlank (c : Char) : Bool :=
  blankRanges.any fun r => decide (r.1 ≤ c.toNat ∧ c.toNat ≤ r.2)

theorem isBlank_of_isWhitespace {c : Char} (h : c.isWhitespace) : isBlank c := by
  simp only [Char.isWhitespace, Bool.or_eq_true, decide_eq_true_eq] at h
  rcases h with ((rfl | rfl) | rfl) | rfl <;> decide

/-- Twenty-five characters are blank. -/
example : (blankRanges.map fun r => r.2 + 1 - r.1).sum = 25 := by decide

/-- The text without its leading blanks. -/
def trimLeft (t : Text) : Text := t.dropWhile isBlank

/-- The text without its trailing blanks. -/
def trimRight (t : Text) : Text := (t.reverse.dropWhile isBlank).reverse

/-- The text without its leading and trailing blanks. -/
def trim (t : Text) : Text := trimRight (trimLeft t)

/-! ## Texts with nothing to trim -/

/-- What is left of a text starts with no blank. -/
theorem head?_trimLeft (t : Text) : (trimLeft t).head?.all (!isBlank ·) := by
  have h := List.head?_dropWhile_not isBlank t
  unfold trimLeft
  cases hd : (t.dropWhile isBlank).head? <;> simp_all

/-- Trimming takes nothing from a text that neither starts nor ends with a blank. -/
theorem trim_eq_self {t : Text} (hl : t.head?.all (!isBlank ·)) (hr : t.getLast?.all (!isBlank ·)) :
    trim t = t := by
  have stays : ∀ u : Text, u.head?.all (!isBlank ·) → u.dropWhile isBlank = u := by
    intro u hu
    cases u with
    | nil => rfl
    | cons c u => simp_all
  have left : trimLeft t = t := stays t hl
  have right : t.reverse.dropWhile isBlank = t.reverse := stays t.reverse (by simpa using hr)
  rw [trim, left, trimRight, right, List.reverse_reverse]

end FramePatch.Text
