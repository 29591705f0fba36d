import FramePatch.Numeral
import FramePatch.Text.Blank

/-!
# Word literals

The spelling of a 32-bit word in configuration files and on the command line. Leading blanks and
one plus sign may come first; then `0x` or `0X` announces hexadecimal digits, a `0` with more
after it announces octal digits, and anything else is decimal. The whole rest has to be digits,
and the number has to fit: a literal never wraps.

Words are printed either with eight hexadecimal digits (`Literal.hex`) or in decimal
(`Literal.decimal`). `read?_hex`: the hexadecimal form reads back.
-/

namespace FramePatch.Literal

/-- The numeral of a literal without its sign, as its base and its digits. -/
def radix : Text → Nat × Text
  | '0' :: 'x' :: ds => (16, ds)
  | '0' :: 'X' :: ds => (16, ds)
  | '0' :: d :: ds => (8, d :: ds)
  | ds => (10, ds)

/-- The text without one leading plus sign. -/
def dropPlus (t : Text) : Text := (Text.stripStart? '+' t).getD t

/-- The number that a literal denotes, of any size. -/
def number? (t : Text) : Option Nat :=
  let (base, ds) := radix (dropPlus (Text.trimLeft t))
  Numeral.value? base ds

/-- The word that a literal denotes. -/
def read? (t : Text) : Option UInt32 :=
  (number? t).bind fun n => if n < UInt32.size then some (UInt32.ofNat n) else none

/-- The literal of a word with eight upper-case hexadecimal digits. -/
def hex (w : UInt32) : Text := '0' :: 'x' :: Numeral.hex 8 w.toNat

/-- The decimal literal of a word. -/
def decimal (w : UInt32) : Text := Numeral.decimal w.toNat

/-- A hexadecimal literal consists of letters and digits. -/
theorem isAlphanum_of_mem_hex {w : UInt32} {c : Char} (h : c ∈ hex w) : c.isAlphanum := by
  simp only [hex, List.mem_cons] at h
  rcases h with rfl | rfl | h
  · decide
  · decide
  · obtain ⟨d, hd, rfl⟩ := Numeral.mem_hex h
    have all : ∀ d : Fin 16, (Numeral.hexDigit d).isAlphanum := by decide
    exact all ⟨d, hd⟩

theorem number?_hex (w : UInt32) : number? (hex w) = some w.toNat := by
  have hw : w.toNat < Nat.pow 16 8 := w.toNat_lt
  have ht : Text.trimLeft (hex w) = hex w := rfl
  have hp : dropPlus (hex w) = hex w := rfl
  simp only [number?, ht, hp]
  simp only [hex, radix]
  exact Numeral.value?_hex (by decide) hw

@[simp] theorem read?_hex (w : UInt32) : read? (hex w) = some w := by
  have hw : w.toNat < UInt32.size := w.toNat_lt
  simp [read?, number?_hex, hw]

end FramePatch.Literal
