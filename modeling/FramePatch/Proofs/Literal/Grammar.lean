import FramePatch.Proofs.Literal
import Mathlib.Data.Nat.Digits.Defs
import Mathlib.Tactic.Ring

/-!
# The grammar of literals

Which texts are read as words, and as which word, said without the steps of reading.

* `Numeral.Denotes`: a row of digits denotes the number with these digits in its base. A digit is
  looked up in a table of sixteen characters, and the place of a digit gives its weight.
* `Literal.Denotes`: a literal is blanks, at most one plus sign, and an unsigned literal of one of
  four forms (`Literal.Unsigned`). It denotes a natural number of any size.

Reading keeps one number and multiplies it by the base at each digit, so the induction
(`extend?_eq_some_iff`) is over the digits that are still to come, from any number on. Which form a
literal has shows in its first two characters. That no text denotes two numbers needs no argument
about forms: a text is read as one number (`number?_eq_some_iff_denotes`).
-/

namespace FramePatch

namespace Numeral

/-! ## Digits -/

/-- The character is the digit of value `d` in `base`. From ten on, digits are letters of either
case. -/
def IsDigit (base : Nat) (c : Char) (d : Nat) : Prop :=
  d < base ∧
    ((Text.ofString "0123456789abcdef")[d]? = some c ∨
      (Text.ofString "0123456789ABCDEF")[d]? = some c)

instance (base : Nat) (c : Char) (d : Nat) : Decidable (IsDigit base c d) :=
  inferInstanceAs (Decidable (_ ∧ (_ ∨ _)))

/-- A digit has the same value in every base that has it. -/
theorem digit?_of_lt {base base' d : Nat} {c : Char} (h : digit? base c = some d)
    (hd : d < base') : digit? base' c = some d := by
  simp only [digit?, Option.filter_eq_some_iff, decide_eq_true_eq] at h ⊢
  exact ⟨h.1, hd⟩

/-- **Digits** are read by the table. -/
theorem digit?_eq_some_iff {base d : Nat} {c : Char} :
    digit? base c = some d ↔ IsDigit base c d := by
  constructor
  · intro h
    obtain ⟨hbase, hranges⟩ := ranges_of_digit? h
    have hascii : c.toNat < 128 := by omega
    have hsixteen : d < 16 := by omega
    have all : ∀ n < 128, ∀ d ∈ digit? 16 (Char.ofNat n), IsDigit 16 (Char.ofNat n) d := by decide
    have hdigit := all c.toNat hascii
    rw [Char.ofNat_toNat] at hdigit
    exact ⟨hbase, (hdigit d (digit?_of_lt h hsixteen)).2⟩
  · rintro ⟨hbase, htable⟩
    have hsixteen : d < 16 := by
      rcases htable with h | h <;> exact (List.getElem?_eq_some_iff.1 h).1
    have all : ∀ d < 16, ((Text.ofString "0123456789abcdef")[d]?).all (digit? 16 · = some d) ∧
        ((Text.ofString "0123456789ABCDEF")[d]?).all (digit? 16 · = some d) := by decide
    obtain ⟨hlower, hupper⟩ := all d hsixteen
    have hdigit : digit? 16 c = some d := by
      rcases htable with h | h
      · simpa [h] using hlower
      · simpa [h] using hupper
    exact digit?_of_lt hdigit hbase

/-! ## Rows of digits -/

/-- The text is a row of one or more digits, the most significant one first, and `n` is the number
with these digits. -/
def Denotes (base : Nat) (ds : Text) (n : Nat) : Prop :=
  ds ≠ [] ∧ ∃ values, List.Forall₂ (IsDigit base) ds values ∧ n = Nat.ofDigits base values.reverse

/-- **A number continued by digits**: it is moved to the left by their count, and the number that
they make up is added. -/
theorem extend?_eq_some_iff {base n m : Nat} {ds : Text} :
    extend? base n ds = some m ↔
      ∃ values, List.Forall₂ (IsDigit base) ds values ∧
        m = base ^ values.length * n + Nat.ofDigits base values.reverse := by
  -- one more digit in front is worth a power of the base
  have hfront (n d : Nat) (values : List Nat) :
      base ^ values.length * (base * n + d) + Nat.ofDigits base values.reverse =
        base ^ (d :: values).length * n + Nat.ofDigits base (d :: values).reverse := by
    rw [List.reverse_cons, Nat.ofDigits_append, Nat.ofDigits_singleton, List.length_reverse,
      List.length_cons]
    ring
  induction ds generalizing n with
  | nil =>
    constructor
    · rintro ⟨⟩
      exact ⟨[], .nil, by simp⟩
    · rintro ⟨_, ⟨⟩, rfl⟩
      simp [extend?]
  | cons c rest ih =>
    rw [extend?, Option.bind_eq_some_iff]
    constructor
    · rintro ⟨d, hd, hrest⟩
      obtain ⟨values, hvalues, rfl⟩ := ih.1 hrest
      exact ⟨d :: values, .cons (digit?_eq_some_iff.1 hd) hvalues, hfront n d values⟩
    · rintro ⟨_, hvalues, rfl⟩
      cases hvalues with
      | @cons _ d _ values hd hvalues =>
        exact ⟨d, digit?_eq_some_iff.2 hd, ih.2 ⟨values, hvalues, (hfront n d values).symm⟩⟩

theorem value?_eq_some_iff_denotes {base n : Nat} {ds : Text} :
    value? base ds = some n ↔ Denotes base ds n := by
  have hdigits : extend? base 0 ds = some n ↔
      ∃ values, List.Forall₂ (IsDigit base) ds values ∧
        n = Nat.ofDigits base values.reverse := by
    simp only [extend?_eq_some_iff, Nat.mul_zero, Nat.zero_add]
  rw [Denotes, ← hdigits]
  constructor
  · exact extend?_of_value?
  · rintro ⟨hne, h⟩
    rwa [value?, if_neg (mt List.isEmpty_iff.1 hne)]

/-- A row of digits starts with a digit. -/
theorem Denotes.exists_head {base n : Nat} {ds : Text} (h : Denotes base ds n) :
    ∃ c rest d, ds = c :: rest ∧ digit? base c = some d := by
  obtain ⟨hne, values, hvalues, -⟩ := h
  cases hvalues with
  | nil => exact absurd rfl hne
  | cons hd _ => exact ⟨_, _, _, rfl, digit?_eq_some_iff.2 hd⟩

end Numeral

namespace Literal

/-! ## Unsigned literals -/

/-- The text is a literal of `n` without blanks and sign. -/
inductive Unsigned : Text → Nat → Prop
  | hexadecimal {mark : Char} {ds : Text} {n : Nat} (hmark : mark = 'x' ∨ mark = 'X')
      (hds : Numeral.Denotes 16 ds n) : Unsigned ('0' :: mark :: ds) n
  | octal {ds : Text} {n : Nat} (hds : Numeral.Denotes 8 ds n) : Unsigned ('0' :: ds) n
  | zero : Unsigned ['0'] 0
  | decimal {ds : Text} {n : Nat} (hhead : ds.head? ≠ some '0') (hds : Numeral.Denotes 10 ds n) :
      Unsigned ds n

/-- The base of an unsigned literal is the one of its form. -/
theorem value?_radix_of_unsigned {u : Text} {n : Nat} (h : Unsigned u n) :
    Numeral.value? (radix u).1 (radix u).2 = some n := by
  cases h with
  | hexadecimal hmark hds =>
    rw [← Numeral.value?_eq_some_iff_denotes] at hds
    rcases hmark with rfl | rfl <;> exact hds
  | octal hds =>
    -- an octal digit is no mark of hexadecimal ones
    obtain ⟨c, rest, d, rfl, hc⟩ := hds.exists_head
    have hx : c ≠ 'x' := by
      rintro rfl
      exact nomatch hc
    have hX : c ≠ 'X' := by
      rintro rfl
      exact nomatch hc
    rw [radix_octal hx hX]
    exact Numeral.value?_eq_some_iff_denotes.2 hds
  | zero => rfl
  | decimal hhead hds =>
    obtain ⟨c, rest, d, rfl, -⟩ := hds.exists_head
    have hzero : c ≠ '0' := fun hc => hhead (by rw [hc]; rfl)
    rw [radix_of_ne_zero hzero]
    exact Numeral.value?_eq_some_iff_denotes.2 hds

/-- Digits of the base that a text announces make it an unsigned literal. -/
theorem unsigned_of_value?_radix {u : Text} {n : Nat}
    (h : Numeral.value? (radix u).1 (radix u).2 = some n) : Unsigned u n := by
  cases u with
  | nil => exact .decimal (fun h => nomatch h) (Numeral.value?_eq_some_iff_denotes.1 h)
  | cons c rest =>
    by_cases hzero : c = '0'
    · subst hzero
      cases rest with
      | nil =>
        obtain rfl : 0 = n := Option.some.inj h
        exact .zero
      | cons d ds =>
        by_cases hd : d = 'x' ∨ d = 'X'
        · refine .hexadecimal hd (Numeral.value?_eq_some_iff_denotes.1 ?_)
          rcases hd with rfl | rfl <;> exact h
        · rw [radix_octal (mt .inl hd) (mt .inr hd)] at h
          exact .octal (Numeral.value?_eq_some_iff_denotes.1 h)
    · rw [radix_of_ne_zero hzero] at h
      have hhead : (c :: rest).head? ≠ some '0' := fun h => hzero (Option.some.inj h)
      exact .decimal hhead (Numeral.value?_eq_some_iff_denotes.1 h)

/-- An unsigned literal starts with a letter or digit. -/
theorem Unsigned.exists_head {u : Text} {n : Nat} (h : Unsigned u n) :
    ∃ c rest, u = c :: rest ∧ c.isAlphanum := by
  cases h with
  | hexadecimal => exact ⟨_, _, rfl, rfl⟩
  | octal => exact ⟨_, _, rfl, rfl⟩
  | zero => exact ⟨_, _, rfl, rfl⟩
  | decimal hhead hds =>
    obtain ⟨c, rest, d, rfl, hc⟩ := hds.exists_head
    exact ⟨c, rest, rfl, Numeral.isAlphanum_of_digit? hc⟩

/-! ## Literals -/

/-- The text is a literal of `n`: blanks, at most one plus sign, and an unsigned literal. -/
def Denotes (t : Text) (n : Nat) : Prop :=
  ∃ blanks sign u : Text, t = blanks ++ (sign ++ u) ∧ (∀ c ∈ blanks, Text.isBlank c) ∧
    (sign = [] ∨ sign = ['+']) ∧ Unsigned u n

/-- What comes off an unsigned literal with or without a sign is the sign only. -/
theorem dropPlus_trimLeft_of_unsigned {sign u : Text} {n : Nat} (hsign : sign = [] ∨ sign = ['+'])
    (hu : Unsigned u n) : dropPlus (Text.trimLeft (sign ++ u)) = u := by
  obtain ⟨c, rest, rfl, hc⟩ := hu.exists_head
  rcases hsign with rfl | rfl
  · have hplus : c ≠ '+' := by
      rintro rfl
      exact nomatch hc
    have hblank : Text.isBlank c = false := Text.isBlank_of_isAlphanum hc
    rw [List.nil_append, Text.trimLeft_of_head (by simp [hblank]), dropPlus, Text.stripStart?,
      if_neg hplus]
    rfl
  · rfl

theorem number?_eq_some_iff_denotes {t : Text} {n : Nat} : number? t = some n ↔ Denotes t n := by
  constructor
  · intro h
    have hunsigned : Unsigned (dropPlus (Text.trimLeft t)) n := unsigned_of_value?_radix h
    have hblanks : t.takeWhile Text.isBlank ++ Text.trimLeft t = t :=
      List.takeWhile_append_dropWhile
    have hblank : ∀ c ∈ t.takeWhile Text.isBlank, Text.isBlank c :=
      fun _ hc => List.mem_takeWhile_imp hc
    rcases eq_dropPlus_or (Text.trimLeft t) with hsign | hsign
    · refine ⟨_, [], _, ?_, hblank, .inl rfl, hunsigned⟩
      rw [List.nil_append, ← hsign, hblanks]
    · refine ⟨_, ['+'], _, ?_, hblank, .inr rfl, hunsigned⟩
      rw [List.singleton_append, ← hsign, hblanks]
  · rintro ⟨blanks, sign, u, rfl, hblank, hsign, hunsigned⟩
    have htrim : Text.trimLeft (blanks ++ (sign ++ u)) = Text.trimLeft (sign ++ u) :=
      List.dropWhile_append_of_pos hblank
    rw [number?, htrim, dropPlus_trimLeft_of_unsigned hsign hunsigned]
    exact value?_radix_of_unsigned hunsigned

theorem read?_eq_some_iff_number? {t : Text} {w : UInt32} :
    read? t = some w ↔ number? t = some w.toNat := by
  constructor
  · intro h
    obtain ⟨n, hn, hword⟩ := Option.bind_eq_some_iff.1 h
    split at hword
    · next hfits =>
      obtain rfl := Option.some.inj hword
      rw [UInt32.toNat_ofNat_of_lt' hfits, hn]
    · exact nomatch hword
  · intro h
    have hfits : w.toNat < UInt32.size := w.toNat_lt
    simp [read?, h, hfits]

/-- **Reading accepts the grammar** and nothing else.

* A text is read as a word exactly if it is a literal of the number that the word holds.
* A literal is read exactly if its number is below `2 ^ 32`. A number that does not fit gives no
  word at all, and not its remainder.
* No text is a literal of two numbers, in whichever ways it may be taken apart. -/
theorem read?_eq_some_iff_denotes (t : Text) :
    (∀ w, read? t = some w ↔ Denotes t w.toNat) ∧
      (∀ n, Denotes t n → ((read? t).isSome ↔ n < 2 ^ 32)) ∧
      ∀ m n, Denotes t m → Denotes t n → m = n := by
  have hword (w : UInt32) : read? t = some w ↔ Denotes t w.toNat :=
    read?_eq_some_iff_number?.trans number?_eq_some_iff_denotes
  have hunique (m n : Nat) (hm : Denotes t m) (hn : Denotes t n) : m = n := by
    have h : some m = some n :=
      (number?_eq_some_iff_denotes.2 hm).symm.trans (number?_eq_some_iff_denotes.2 hn)
    exact Option.some.inj h
  refine ⟨hword, fun n hn => ?_, hunique⟩
  constructor
  · intro h
    obtain ⟨w, hw⟩ := Option.isSome_iff_exists.1 h
    rw [hunique n w.toNat hn ((hword w).1 hw)]
    exact w.toNat_lt
  · intro h
    have hfits : (UInt32.ofNat n).toNat = n := UInt32.toNat_ofNat_of_lt' h
    rw [(hword (UInt32.ofNat n)).2 (by rwa [hfits])]
    rfl

/-- Blanks of three kinds, a sign and leading zeros before the largest word, in letters of both
cases; and the next number, in octal, which does not fit. -/
theorem read?_largest :
    let largest := Text.ofString "\u3000\t +0X000fFFfFFfF"
    let next := Text.ofString "0040000000000"
    read? largest = some 4294967295 ∧ Denotes next 4294967296 ∧ read? next = none := by
  intro largest next
  have hhex : Numeral.Denotes 16 (Text.ofString "000fFFfFFfF") 4294967295 :=
    ⟨by decide, [0, 0, 0, 15, 15, 15, 15, 15, 15, 15, 15], by decide, by decide⟩
  have hlargest : Denotes largest 4294967295 :=
    ⟨Text.ofString "\u3000\t ", ['+'], _, by decide, List.all_eq_true.1 rfl, .inr rfl,
      .hexadecimal (.inr rfl) hhex⟩
  have hoctal : Numeral.Denotes 8 (Text.ofString "040000000000") 4294967296 :=
    ⟨by decide, [0, 4, 0, 0, 0, 0, 0, 0, 0, 0, 0, 0], by decide, by decide⟩
  have hnext : Denotes next 4294967296 :=
    ⟨[], [], _, by decide, List.forall_mem_nil _, .inl rfl, .octal hoctal⟩
  have hfits := (read?_eq_some_iff_denotes next).2.1 4294967296 hnext
  refine ⟨((read?_eq_some_iff_denotes largest).1 4294967295).2 hlargest, hnext, ?_⟩
  rw [← Option.not_isSome_iff_eq_none, hfits]
  decide

/-- A sign has its place in front of the base, and no blank comes after it. -/
example : read? (Text.ofString "0x+1") = none ∧ read? (Text.ofString "+ 1") = none := by decide

end Literal

end FramePatch
