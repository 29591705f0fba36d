import FramePatch.Text.Basic

/-!
# Numerals

Digit strings in a base from 2 to 16. Reading takes digits of either case and nothing else, and
gives a natural number of any size; printing pads hexadecimal digits to a fixed width, in upper
case, or writes the shortest decimal.

* `value?_hex`: a fixed-width hexadecimal numeral reads back as the number it was printed from,
  as far as the width holds it.
-/

namespace FramePatch.Numeral

/-! ## Reading -/

/-- The value of a digit in `base`; only the letters and digits of ASCII are digits. -/
def digit? (base : Nat) (c : Char) : Option Nat :=
  let d :=
    if '0' ≤ c ∧ c ≤ '9' then some (c.toNat - '0'.toNat)
    else if 'a' ≤ c ∧ c ≤ 'f' then some (c.toNat - 'a'.toNat + 10)
    else if 'A' ≤ c ∧ c ≤ 'F' then some (c.toNat - 'A'.toNat + 10)
    else none
  d.filter (· < base)

/-- The value of `n` continued by the given digits; nothing if one of them is no digit. -/
def extend? (base : Nat) : Nat → Text → Option Nat
  | n, [] => some n
  | n, c :: ds => (digit? base c).bind fun d => extend? base (base * n + d) ds

/-- The value of a numeral of at least one digit. -/
def value? (base : Nat) (ds : Text) : Option Nat :=
  if ds.isEmpty then none else extend? base 0 ds

theorem extend?_append (base n : Nat) (as bs : Text) :
    extend? base n (as ++ bs) = (extend? base n as).bind fun m => extend? base m bs := by
  induction as generalizing n with
  | nil => rfl
  | cons c as ih =>
    cases h : digit? base c <;> simp [extend?, h, ih]

/-! ## Printing -/

/-- The digit of a value below sixteen, in upper case. -/
def hexDigit (n : Nat) : Char := Char.ofNat (if n < 10 then '0'.toNat + n else 'A'.toNat + (n - 10))

/-- The last `width` hexadecimal digits of a number, with leading zeros. -/
def hex : Nat → Nat → Text
  | 0, _ => []
  | width + 1, n => hex width (n / 16) ++ [hexDigit (n % 16)]

/-- The shortest decimal numeral of a number. -/
def decimal (n : Nat) : Text := Nat.toDigits 10 n

@[simp] theorem length_hex (width n : Nat) : (hex width n).length = width := by
  induction width generalizing n with
  | zero => rfl
  | succ width ih => simp [hex, ih]

/-- Every character of a fixed-width numeral is a digit. -/
theorem mem_hex {width n : Nat} {c : Char} (h : c ∈ hex width n) : ∃ d < 16, c = hexDigit d := by
  induction width generalizing n with
  | zero => simp [hex] at h
  | succ width ih =>
    rcases List.mem_append.1 h with h | h
    · exact ih h
    · exact ⟨n % 16, Nat.mod_lt n (by decide), List.mem_singleton.1 h⟩

theorem digit?_hexDigit {n : Nat} (h : n < 16) : digit? 16 (hexDigit n) = some n := by
  have : ∀ m : Fin 16, digit? 16 (hexDigit m) = some m.val := by decide
  exact this ⟨n, h⟩

theorem extend?_hex {width n : Nat} (h : n < Nat.pow 16 width) :
    extend? 16 0 (hex width n) = some n := by
  induction width generalizing n with
  | zero =>
    have hn : n = 0 := Nat.lt_one_iff.1 h
    simp [hex, extend?, hn]
  | succ width ih =>
    have hq : n / 16 < Nat.pow 16 width := (Nat.div_lt_iff_lt_mul (by decide)).2 h
    have hd : digit? 16 (hexDigit (n % 16)) = some (n % 16) :=
      digit?_hexDigit (Nat.mod_lt _ (by decide))
    simp [hex, extend?_append, ih hq, extend?, hd, Nat.div_add_mod]

/-- A fixed-width numeral reads back as its number. -/
theorem value?_hex {width n : Nat} (hw : 0 < width) (h : n < Nat.pow 16 width) :
    value? 16 (hex width n) = some n := by
  have hne : hex width n ≠ [] := by
    intro he
    have := length_hex width n
    simp_all
  simp [value?, hne, extend?_hex h]

end FramePatch.Numeral
