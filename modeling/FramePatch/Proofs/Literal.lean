import FramePatch.Literal
import FramePatch.Proofs.Text.Fold
import FramePatch.Proofs.Text.Trimmed
import Mathlib.Data.List.Induction

/-!
# Reading literals

The decimal form of a word reads back as the word (`read?_decimal`), as the hexadecimal form does.
The numeral is read from the left and printed from the right, so `extend?_decimal` follows the
printer: the last digit comes off the end, and the tenth part stands in front of it. A decimal
literal is never taken for an octal one, since only the numeral of zero starts with a zero.

The case of letters does not matter (`read?_congr`): not for digits, nor for the mark in front of
hexadecimal ones. What a literal can be made of is little: blanks, a plus sign, letters and digits
(`mem_of_read?`).

The hexadecimal form is also all that there is of its kind: every `0x` with eight upper-case digits
after it is printed for a word (`Canonical.exists_hex_eq`).
-/

namespace FramePatch

namespace Numeral

theorem digit?_digitChar {n : Nat} (h : n < 10) : digit? 10 (Nat.digitChar n) = some n := by
  have all : ∀ m : Fin 10, digit? 10 (Nat.digitChar m) = some m.val := by decide
  exact all ⟨n, h⟩

/-- A decimal numeral reads back as its number. -/
theorem extend?_decimal (n : Nat) : extend? 10 0 (decimal n) = some n := by
  -- the last digit comes off the end, and the tenth part is printed in front of it
  induction n using Nat.strongRecOn with
  | ind n ih =>
    rw [decimal, Nat.toDigits_eq_if (by decide)]
    split
    · next h => simp [extend?, digit?_digitChar h]
    · next h =>
      have hfront : extend? 10 0 (Nat.toDigits 10 (n / 10)) = some (n / 10) := ih _ (by omega)
      have hlast := digit?_digitChar (Nat.mod_lt n (by decide : 10 > 0))
      simp [extend?_append, hfront, extend?, hlast, Nat.div_add_mod]

theorem decimal_ne_nil (n : Nat) : decimal n ≠ [] := Nat.toDigits_ne_nil

theorem value?_decimal (n : Nat) : value? 10 (decimal n) = some n := by
  simp [value?, decimal_ne_nil n, extend?_decimal n]

/-- Only the numeral of zero starts with a zero. -/
theorem head?_decimal {n : Nat} (h : n ≠ 0) : (decimal n).head? ≠ some '0' := by
  induction n using Nat.strongRecOn with
  | ind n ih =>
    rw [decimal, Nat.toDigits_eq_if (by decide)]
    split
    · simp [h]
    · next hlarge =>
      have hfront := ih (n / 10) (by omega) (by omega)
      rwa [List.head?_append_of_ne_nil _ Nat.toDigits_ne_nil]

/-- A decimal numeral consists of digits. -/
theorem isDigit_of_mem_decimal {n : Nat} {c : Char} (h : c ∈ decimal n) : c.isDigit :=
  Nat.isDigit_of_mem_toDigits (by decide) (by decide) h

end Numeral

namespace Literal

/-- Only a zero announces another base than ten. -/
theorem radix_of_ne_zero {c : Char} (h : c ≠ '0') (ds : Text) :
    radix (c :: ds) = (10, c :: ds) := by
  rw [radix.eq_def]
  split <;> simp_all

/-- A numeral without a leading zero, and a single zero, are decimal. -/
theorem radix_decimal (n : Nat) : radix (Numeral.decimal n) = (10, Numeral.decimal n) := by
  by_cases h : n = 0
  · subst h
    rfl
  · have hhead := Numeral.head?_decimal h
    cases hd : Numeral.decimal n with
    | nil => rfl
    | cons c ds =>
      rw [hd] at hhead
      exact radix_of_ne_zero (fun hc => hhead (by rw [hc]; rfl)) ds

theorem number?_decimal (n : Nat) : number? (Numeral.decimal n) = some n := by
  obtain ⟨c, ds, hd⟩ := List.exists_cons_of_ne_nil (Numeral.decimal_ne_nil n)
  have hdigit : c.isDigit := Numeral.isDigit_of_mem_decimal (hd ▸ List.mem_cons_self)
  have hblank : Text.isBlank c = false :=
    Text.isBlank_of_isAlphanum (by simp [Char.isAlphanum, hdigit])
  have hplus : c ≠ '+' := by
    rintro rfl
    exact absurd hdigit (by decide)
  have htrim : Text.trimLeft (Numeral.decimal n) = Numeral.decimal n := by
    rw [hd, Text.trimLeft, List.dropWhile_cons_of_neg (by simp [hblank])]
  have hsign : dropPlus (Numeral.decimal n) = Numeral.decimal n := by
    rw [hd, dropPlus, Text.stripStart?, if_neg hplus]
    rfl
  rw [number?, htrim, hsign, radix_decimal]
  exact Numeral.value?_decimal n

@[simp] theorem read?_decimal (w : UInt32) : read? (decimal w) = some w := by
  have hw : w.toNat < UInt32.size := w.toNat_lt
  simp [read?, decimal, number?_decimal, hw]

/-- A decimal literal consists of letters and digits. -/
theorem isAlphanum_of_mem_decimal {w : UInt32} {c : Char} (h : c ∈ decimal w) : c.isAlphanum := by
  have hdigit : c.isDigit := Numeral.isDigit_of_mem_decimal h
  simp [Char.isAlphanum, hdigit]

theorem decimal_injective {v w : UInt32} (h : decimal v = decimal w) : v = w := by
  have hread : read? (decimal v) = read? (decimal w) := congrArg read? h
  simpa using hread

end Literal

/-! ## Case -/

namespace Numeral

/-- Digits have the same value in either case. -/
theorem digit?_toLower (base : Nat) (c : Char) : digit? base c.toLower = digit? base c := by
  refine Text.capitals_or_same (P := fun c => digit? base c.toLower = digit? base c) ?_ ?_ c
  · intro n hn
    rw [digit?, digit?]
    -- the base only bounds the value
    congr 1
    revert n
    decide
  · intro c hsame
    rw [hsame]

theorem extend?_fold (base n : Nat) (ds : Text) :
    extend? base n (Text.fold ds) = extend? base n ds := by
  induction ds generalizing n with
  | nil => rfl
  | cons c rest ih =>
    show (digit? base c.toLower).bind (fun d => extend? base (base * n + d) (Text.fold rest)) =
      (digit? base c).bind fun d => extend? base (base * n + d) rest
    rw [digit?_toLower]
    simp only [ih]

theorem value?_fold (base : Nat) (ds : Text) : value? base (Text.fold ds) = value? base ds := by
  rw [value?, value?, extend?_fold, Text.fold, List.isEmpty_map]

end Numeral

namespace Literal

theorem dropPlus_fold (t : Text) : dropPlus (Text.fold t) = Text.fold (dropPlus t) := by
  cases t with
  | nil => rfl
  | cons c rest =>
    show (Text.stripStart? '+' (c.toLower :: Text.fold rest)).getD (c.toLower :: Text.fold rest) =
      Text.fold ((Text.stripStart? '+' (c :: rest)).getD (c :: rest))
    have hplus : c.toLower = '+' ↔ c = '+' := Text.toLower_eq_iff (by decide) c
    by_cases h : c = '+'
    · simp [Text.stripStart?, h]
    · simp [Text.stripStart?, h, hplus, Text.fold]

/-- The mark of hexadecimal digits may be in either case. -/
theorem toLower_eq_x_iff (c : Char) : c.toLower = 'x' ↔ c = 'x' ∨ c = 'X' := by
  refine Text.capitals_or_same (P := fun c => c.toLower = 'x' ↔ c = 'x' ∨ c = 'X') (by decide) ?_ c
  intro c hsame
  rw [hsame]
  refine (or_iff_left ?_).symm
  rintro rfl
  exact absurd hsame (by decide)

theorem toLower_ne_X (c : Char) : c.toLower ≠ 'X' := by
  refine Text.capitals_or_same (P := fun c => c.toLower ≠ 'X') (by decide) ?_ c
  intro c hsame hX
  rw [hsame] at hX
  subst hX
  exact absurd hsame (by decide)

/-- A zero with anything but an `x` after it announces octal digits. -/
theorem radix_octal {d : Char} (hx : d ≠ 'x') (hX : d ≠ 'X') (ds : Text) :
    radix ('0' :: d :: ds) = (8, d :: ds) := by
  rw [radix.eq_def]
  split <;> simp_all

/-- A folded literal is in the same base, with its digits folded. -/
theorem radix_fold (t : Text) : radix (Text.fold t) = ((radix t).1, Text.fold (radix t).2) := by
  cases t with
  | nil => rfl
  | cons c rest =>
    by_cases hzero : c = '0'
    · subst hzero
      cases rest with
      | nil => rfl
      | cons d ds =>
        show radix ('0' :: d.toLower :: Text.fold ds) = _
        by_cases hd : d = 'x' ∨ d = 'X'
        · rw [(toLower_eq_x_iff d).2 hd]
          rcases hd with rfl | rfl <;> rfl
        · have hx : d.toLower ≠ 'x' := mt (toLower_eq_x_iff d).1 hd
          rw [radix_octal hx (toLower_ne_X d), radix_octal (mt .inl hd) (mt .inr hd)]
          rfl
    · have hfolded : c.toLower ≠ '0' := mt (Text.toLower_eq_iff (by decide) c).1 hzero
      show radix (c.toLower :: Text.fold rest) = _
      rw [radix_of_ne_zero hfolded, radix_of_ne_zero hzero]
      rfl

/-- **Literals** that differ in case only denote the same word. -/
theorem read?_congr {s t : Text} (h : Text.fold s = Text.fold t) : read? s = read? t := by
  have hfold (t : Text) : number? (Text.fold t) = number? t := by
    rw [number?, number?, Text.trimLeft_fold, dropPlus_fold, radix_fold]
    exact Numeral.value?_fold _ _
  rw [read?, read?, ← hfold s, h, hfold t]

end Literal

/-! ## What literals are made of -/

namespace Numeral

/-- A digit of any base is in one of three ranges of ASCII, and has its value from its place
there. -/
theorem ranges_of_digit? {base d : Nat} {c : Char} (h : digit? base c = some d) :
    d < base ∧
      (48 ≤ c.toNat ∧ c.toNat ≤ 57 ∧ d = c.toNat - 48 ∨
        97 ≤ c.toNat ∧ c.toNat ≤ 102 ∧ d = c.toNat - 87 ∨
        65 ≤ c.toNat ∧ c.toNat ≤ 70 ∧ d = c.toNat - 55) := by
  simp only [digit?, Option.filter_eq_some_iff, decide_eq_true_eq] at h
  obtain ⟨hdigit, hbase⟩ := h
  simp only [Char.le_def, UInt32.le_iff_toNat_le, Char.toNat_val] at hdigit
  have h0 : '0'.toNat = 48 ∧ '9'.toNat = 57 := ⟨rfl, rfl⟩
  have ha : 'a'.toNat = 97 ∧ 'f'.toNat = 102 := ⟨rfl, rfl⟩
  have hA : 'A'.toNat = 65 ∧ 'F'.toNat = 70 := ⟨rfl, rfl⟩
  split_ifs at hdigit <;> simp only [Option.some.injEq] at hdigit <;> omega

/-- So it is a letter or digit. -/
theorem isAlphanum_of_digit? {base d : Nat} {c : Char} (h : digit? base c = some d) :
    c.isAlphanum := by
  obtain ⟨-, hranges⟩ := ranges_of_digit? h
  delta Char.isAlphanum Char.isAlpha Char.isUpper Char.isLower Char.isDigit
  simp only [Bool.or_eq_true, Bool.and_eq_true, decide_eq_true_eq, UInt32.le_iff_toNat_le,
    Char.toNat_val]
  have h0 : '0'.toNat = 48 ∧ '9'.toNat = 57 := ⟨rfl, rfl⟩
  have ha : 'a'.toNat = 97 ∧ 'z'.toNat = 122 := ⟨rfl, rfl⟩
  have hA : 'A'.toNat = 65 ∧ 'Z'.toNat = 90 := ⟨rfl, rfl⟩
  omega

theorem isAlphanum_of_extend? {base n m : Nat} {ds : Text} (h : extend? base n ds = some m)
    {c : Char} (hc : c ∈ ds) : c.isAlphanum := by
  induction ds generalizing n with
  | nil => exact absurd hc List.not_mem_nil
  | cons d rest ih =>
    obtain ⟨value, hd, hrest⟩ := Option.bind_eq_some_iff.1 h
    rcases List.mem_cons.1 hc with rfl | hc
    · exact isAlphanum_of_digit? hd
    · exact ih hrest hc

theorem extend?_of_value? {base n : Nat} {ds : Text} (h : value? base ds = some n) :
    ds ≠ [] ∧ extend? base 0 ds = some n := by
  have hne : ds ≠ [] := by
    rintro rfl
    simp [value?] at h
  rw [value?, if_neg (mt List.isEmpty_iff.1 hne)] at h
  exact ⟨hne, h⟩

end Numeral

namespace Literal

/-- What announces the base of a literal is a row of letters and digits. -/
theorem exists_eq_append_radix (t : Text) :
    ∃ mark : Text, t = mark ++ (radix t).2 ∧ ∀ c ∈ mark, c.isAlphanum := by
  rw [radix.eq_def]
  split
  · exact ⟨['0', 'x'], rfl, List.all_eq_true.1 rfl⟩
  · exact ⟨['0', 'X'], rfl, List.all_eq_true.1 rfl⟩
  · exact ⟨['0'], rfl, List.all_eq_true.1 rfl⟩
  · exact ⟨[], rfl, List.all_eq_true.1 rfl⟩

theorem eq_dropPlus_or (t : Text) : t = dropPlus t ∨ t = '+' :: dropPlus t := by
  cases h : Text.stripStart? '+' t with
  | none =>
    rw [dropPlus, h]
    exact .inl rfl
  | some r =>
    rw [dropPlus, h]
    exact .inr (Text.stripStart?_eq_some_iff.1 h)

theorem ne_nil_of_read? {t : Text} {w : UInt32} (h : read? t = some w) : t ≠ [] := by
  obtain ⟨n, hn, -⟩ := Option.bind_eq_some_iff.1 h
  rintro rfl
  exact (Numeral.extend?_of_value? hn).1 rfl

/-- **A literal** consists of blanks, a plus sign, letters and digits. -/
theorem mem_of_read? {t : Text} {w : UInt32} (h : read? t = some w) {c : Char} (hc : c ∈ t) :
    Text.isBlank c ∨ c = '+' ∨ c.isAlphanum := by
  obtain ⟨n, hn, -⟩ := Option.bind_eq_some_iff.1 h
  obtain ⟨-, hdigits⟩ := Numeral.extend?_of_value? hn
  obtain ⟨mark, hmark, hletters⟩ := exists_eq_append_radix (dropPlus (Text.trimLeft t))
  -- from left to right: blanks, a sign, what announces the base, and digits
  have hblanks : t.takeWhile Text.isBlank ++ Text.trimLeft t = t := List.takeWhile_append_dropWhile
  rw [← hblanks, List.mem_append] at hc
  rcases hc with hc | hc
  · exact .inl (List.mem_takeWhile_imp hc)
  have hnumeral : c ∈ dropPlus (Text.trimLeft t) → c.isAlphanum := by
    intro hc
    rw [hmark, List.mem_append] at hc
    exact hc.elim (hletters c) (Numeral.isAlphanum_of_extend? hdigits)
  rcases eq_dropPlus_or (Text.trimLeft t) with hsign | hsign
  · rw [hsign] at hc
    exact .inr (.inr (hnumeral hc))
  · rw [hsign, List.mem_cons] at hc
    exact .inr (hc.imp_right hnumeral)

/-- No other character is in a literal. -/
theorem notMem_of_read? {t : Text} {w : UInt32} (h : read? t = some w) {c : Char}
    (hblank : Text.isBlank c = false) (hplus : c ≠ '+') (hc : c.isAlphanum = false) : c ∉ t := by
  intro hmem
  rcases mem_of_read? h hmem with h | h | h
  · exact Bool.eq_false_iff.1 hblank h
  · exact hplus h
  · exact Bool.eq_false_iff.1 hc h

end Literal

/-! ## The hexadecimal form -/

namespace Numeral

/-- Whether a character is a hexadecimal digit as it is printed: `0` to `9`, or `A` to `F`. -/
def isUpperHexDigit (c : Char) : Bool :=
  (decide ('0' ≤ c) && decide (c ≤ '9')) || (decide ('A' ≤ c) && decide (c ≤ 'F'))

theorem isUpperHexDigit_hexDigit {n : Nat} (h : n < 16) : isUpperHexDigit (hexDigit n) := by
  have all : ∀ m : Fin 16, isUpperHexDigit (hexDigit m) := by decide
  exact all ⟨n, h⟩

theorem exists_hexDigit_eq {c : Char} (h : isUpperHexDigit c) : ∃ d < 16, hexDigit d = c := by
  simp only [isUpperHexDigit, Bool.or_eq_true, Bool.and_eq_true, decide_eq_true_eq, Char.le_def,
    UInt32.le_iff_toNat_le, Char.toNat_val] at h
  have h0 : '0'.toNat = 48 ∧ '9'.toNat = 57 := ⟨rfl, rfl⟩
  have hA : 'A'.toNat = 65 ∧ 'F'.toNat = 70 := ⟨rfl, rfl⟩
  rcases h with h | h
  · have hchar : 48 + (c.toNat - 48) = c.toNat := by omega
    refine ⟨c.toNat - 48, by omega, ?_⟩
    rw [hexDigit, if_pos (by omega), h0.1, hchar, Char.ofNat_toNat]
  · have hchar : 65 + (c.toNat - 55 - 10) = c.toNat := by omega
    refine ⟨c.toNat - 55, by omega, ?_⟩
    rw [hexDigit, if_neg (by omega), hA.1, hchar, Char.ofNat_toNat]

/-- Every row of upper-case digits is printed for a number. -/
theorem exists_hex_eq {ds : Text} (h : ∀ c ∈ ds, isUpperHexDigit c) :
    ∃ n, n < Nat.pow 16 ds.length ∧ hex ds.length n = ds := by
  -- as in printing, the last digit comes off first
  induction ds using List.reverseRecOn with
  | nil => exact ⟨0, Nat.one_pos, rfl⟩
  | append_singleton ds c ih =>
    obtain ⟨n, hn, hds⟩ := ih fun d hd => h d (List.mem_append_left _ hd)
    obtain ⟨d, hd, rfl⟩ := exists_hexDigit_eq (h c (List.mem_append_right _ List.mem_cons_self))
    have hdiv : (16 * n + d) / 16 = n := by omega
    have hmod : (16 * n + d) % 16 = d := by omega
    refine ⟨16 * n + d, ?_, ?_⟩
    · rw [List.length_append, List.length_singleton]
      show 16 * n + d < Nat.pow 16 ds.length * 16
      omega
    · rw [List.length_append, List.length_singleton, hex, hdiv, hmod, hds]

end Numeral

namespace Literal

/-- The literals of one form: `0x` and eight upper-case hexadecimal digits. -/
def Canonical (t : Text) : Prop :=
  ∃ ds : Text, t = '0' :: 'x' :: ds ∧ ds.length = 8 ∧ ∀ c ∈ ds, Numeral.isUpperHexDigit c

theorem canonical_hex (w : UInt32) : Canonical (hex w) := by
  refine ⟨Numeral.hex 8 w.toNat, rfl, Numeral.length_hex 8 _, ?_⟩
  intro c hc
  obtain ⟨d, hd, rfl⟩ := Numeral.mem_hex hc
  exact Numeral.isUpperHexDigit_hexDigit hd

/-- Every literal of that form is printed for a word. -/
theorem Canonical.exists_hex_eq {t : Text} (h : Canonical t) : ∃ w, hex w = t := by
  obtain ⟨ds, rfl, hlength, hdigits⟩ := h
  obtain ⟨n, hn, hds⟩ := Numeral.exists_hex_eq hdigits
  rw [hlength] at hn hds
  have hword : (UInt32.ofNat n).toNat = n := UInt32.toNat_ofNat_of_lt' hn
  exact ⟨UInt32.ofNat n, by rw [hex, hword, hds]⟩

end Literal

end FramePatch
