import FramePatch.Text.Blank
import Mathlib.Data.List.DropRight

/-!
# Trimmed texts

A text is *trimmed* when neither of its ends is blank. Trimming gives a trimmed text
(`trimmed_trim`), and takes nothing from a text that is trimmed already (`Trimmed.trim_eq`). Cutting
blanks off the right end alone is enough where the left end is known (`trimmed_trimRight`). Blanks
put around a text are what trimming takes off again (`trim_cons`, `Trimmed.trim_concat`,
`trim_pad`).
-/

namespace FramePatch.Text

/-- Neither end of the text is blank. -/
structure Trimmed (t : Text) : Prop where
  head : t.head?.all (!isBlank ·)
  last : t.getLast?.all (!isBlank ·)

theorem Trimmed.trim_eq {t : Text} (h : Trimmed t) : trim t = t :=
  trim_eq_self h.head h.last

/-- A text between two characters that are not blank is trimmed, whatever it holds. -/
theorem Trimmed.of_ends {c d : Char} {t : Text} (hc : isBlank c = false) (hd : isBlank d = false) :
    Trimmed (c :: t ++ [d]) := by
  constructor
  · simp [hc]
  · rw [List.getLast?_concat]
    simp [hd]

/-- A text without blanks is trimmed. -/
theorem Trimmed.of_forall {t : Text} (h : ∀ c ∈ t, isBlank c = false) : Trimmed t := by
  constructor
  · cases hc : t.head? with
    | none => rfl
    | some c => simp [h c (List.mem_of_mem_head? hc)]
  · cases hc : t.getLast? with
    | none => rfl
    | some c => simp [h c (List.mem_of_getLast? hc)]

/-- Letters and digits are not blank. -/
theorem isBlank_of_isAlphanum {c : Char} (h : c.isAlphanum) : isBlank c = false := by
  -- both classes are intervals of code points, and no two of them meet
  delta Char.isAlphanum Char.isAlpha Char.isUpper Char.isLower Char.isDigit at h
  simp only [Bool.or_eq_true, Bool.and_eq_true, decide_eq_true_eq, UInt32.le_iff_toNat_le] at h
  rw [Bool.eq_false_iff]
  intro hb
  simp only [isBlank, blankRanges, List.any_cons, List.any_nil, Bool.or_false, Bool.or_eq_true,
    decide_eq_true_eq, Char.toNat] at hb
  have hA : 'A'.val.toNat = 65 ∧ 'Z'.val.toNat = 90 := ⟨rfl, rfl⟩
  have ha : 'a'.val.toNat = 97 ∧ 'z'.val.toNat = 122 := ⟨rfl, rfl⟩
  have h0 : '0'.val.toNat = 48 ∧ '9'.val.toNat = 57 := ⟨rfl, rfl⟩
  omega

/-! ## The right end -/

/-- What is left after cutting the right end is a prefix. -/
theorem trimRight_isPrefix (t : Text) : trimRight t <+: t :=
  List.rdropWhile_prefix isBlank t

/-- What is cut off at the right end is blank. -/
theorem exists_eq_trimRight_append (t : Text) :
    ∃ pad, t = trimRight t ++ pad ∧ ∀ c ∈ pad, isBlank c :=
  ⟨t.rtakeWhile isBlank, List.rdropWhile_append_rtakeWhile.symm,
    fun _ hc => List.mem_rtakeWhile_imp hc⟩

/-- Blanks at the right end go, however many. -/
theorem trimRight_append {pad : Text} (h : ∀ c ∈ pad, isBlank c) (t : Text) :
    trimRight (t ++ pad) = trimRight t := by
  have hpad : ∀ c ∈ pad.reverse, isBlank c := fun c hc => h c (List.mem_reverse.1 hc)
  rw [trimRight, List.reverse_append, List.dropWhile_append_of_pos hpad]
  rfl

/-- A character that is not blank keeps the right end from being cut to nothing. -/
theorem trimRight_ne_nil {c : Char} {t : Text} (hmem : c ∈ t) (hc : ¬isBlank c) :
    trimRight t ≠ [] := by
  intro hnil
  obtain ⟨pad, ht, hpad⟩ := exists_eq_trimRight_append t
  rw [ht, hnil] at hmem
  exact hc (hpad c hmem)

/-- What is left after cutting the right end starts as the text does, unless nothing is left. -/
theorem head?_trimRight {t : Text} (h : trimRight t ≠ []) : (trimRight t).head? = t.head? := by
  obtain ⟨cut, hcut⟩ := trimRight_isPrefix t
  conv_rhs => rw [← hcut]
  exact (List.head?_append_of_ne_nil _ h).symm

/-- What is left after cutting the right end does not end in a blank. -/
theorem getLast?_trimRight (t : Text) : (trimRight t).getLast?.all (!isBlank ·) := by
  have h : (t.reverse.dropWhile isBlank).head?.all (!isBlank ·) := head?_trimLeft t.reverse
  rw [trimRight, List.getLast?_reverse]
  exact h

/-- Cutting the right end trims a text that starts with no blank. -/
theorem trimmed_trimRight {t : Text} (h : t.head?.all (!isBlank ·)) : Trimmed (trimRight t) := by
  refine ⟨?_, getLast?_trimRight t⟩
  by_cases hnil : trimRight t = []
  · rw [hnil]
    rfl
  · rw [head?_trimRight hnil]
    exact h

theorem mem_of_mem_trimRight {c : Char} {t : Text} (h : c ∈ trimRight t) : c ∈ t :=
  (trimRight_isPrefix t).subset h

/-! ## Both ends -/

theorem trimmed_trim (t : Text) : Trimmed (trim t) :=
  trimmed_trimRight (head?_trimLeft t)

theorem trimLeft_of_head {t : Text} (h : t.head?.all (!isBlank ·)) : trimLeft t = t := by
  cases t with
  | nil => rfl
  | cons c rest => exact List.dropWhile_cons_of_neg (by simpa using h)

/-- A blank at the left end goes. -/
theorem trim_cons {c : Char} (hc : isBlank c) (t : Text) : trim (c :: t) = trim t := by
  rw [trim, trimLeft, List.dropWhile_cons_of_pos hc]
  rfl

/-- A blank at the right end goes. -/
theorem Trimmed.trim_concat {t : Text} (h : Trimmed t) (hne : t ≠ []) {c : Char} (hc : isBlank c) :
    trim (t ++ [c]) = t := by
  have hhead : (t ++ [c]).head?.all (!isBlank ·) := by
    rw [List.head?_append_of_ne_nil _ hne]
    exact h.head
  have hright : trimRight (t ++ [c]) = trimRight t :=
    trimRight_append (List.forall_mem_singleton.2 hc) t
  have htrim : trimRight t = t := by
    have hboth := h.trim_eq
    rwa [trim, trimLeft_of_head h.head] at hboth
  rw [trim, trimLeft_of_head hhead, hright, htrim]

/-- Blanks around a text go. -/
theorem trim_pad {before after : Text} (hbefore : ∀ c ∈ before, isBlank c)
    (hafter : ∀ c ∈ after, isBlank c) (t : Text) : trim (before ++ t ++ after) = trim t := by
  have hleft : trimLeft (before ++ t ++ after) = trimLeft (t ++ after) := by
    rw [List.append_assoc]
    exact List.dropWhile_append_of_pos hbefore
  rw [trim, hleft, trimLeft, List.dropWhile_append]
  split
  · next hblank =>
    -- nothing but blanks: then nothing is left of what comes after, either
    have hnil : t.dropWhile isBlank = [] := List.isEmpty_iff.1 hblank
    rw [List.dropWhile_eq_nil_iff.2 hafter, trim, trimLeft, hnil]
  · exact trimRight_append hafter _

/-- Nothing is left of blanks. -/
theorem trim_of_blank {t : Text} (h : ∀ c ∈ t, isBlank c) : trim t = [] := by
  have hpad := trim_pad h (fun _ hc => absurd hc List.not_mem_nil) []
  rwa [List.append_nil, List.append_nil] at hpad

theorem mem_of_mem_trim {c : Char} {t : Text} (h : c ∈ trim t) : c ∈ t :=
  (List.dropWhile_suffix isBlank).subset (mem_of_mem_trimRight h)

end FramePatch.Text
