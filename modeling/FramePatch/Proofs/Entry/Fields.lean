import FramePatch.Entry.Line
import FramePatch.Proofs.Literal

/-!
# A line, field by field

The fields of a line are found by three steps over the whole of it: the first equals sign becomes a
colon, a colon at the end goes, and the rest is cut at its colons. Here the same fields are found
from left to right (`fieldsFrom`), one field and one separator at a time, with one bit of memory:
whether an equals sign may still stand for a colon.

- `Separators`, `separators_cons_iff`: separators of which one may be an equals sign, one after
  another.
- `fieldsFrom_eq_cons_iff`: what the first field is, and where the other ones come from.
-/

namespace FramePatch

namespace Text

theorem replaceFirst_append_of_not_mem {old new : Char} {a : Text} (h : old ∉ a) (t : Text) :
    replaceFirst old new (a ++ t) = a ++ replaceFirst old new t := by
  induction a with
  | nil => rfl
  | cons c a ih =>
    simp only [List.mem_cons, not_or] at h
    simp [replaceFirst, Ne.symm h.1, ih h.2]

theorem replaceFirst_eq_nil_iff {old new : Char} {t : Text} :
    replaceFirst old new t = [] ↔ t = [] := by
  cases t with
  | nil => simp [replaceFirst]
  | cons c t => by_cases h : c = old <;> simp [replaceFirst, h]

/-- The text without its last character, if that is `c`, and as it is otherwise. -/
def dropEnd (c : Char) (t : Text) : Text := (stripEnd? c t).getD t

theorem dropEnd_of_not_mem {c : Char} {t : Text} (h : c ∉ t) : dropEnd c t = t := by
  have hlast : t.getLast? ≠ some c := fun hlast => h (List.mem_of_getLast? hlast)
  rw [dropEnd, stripEnd?, if_neg hlast]
  rfl

theorem dropEnd_concat (c : Char) (t : Text) : dropEnd c (t ++ [c]) = t := by
  rw [dropEnd, stripEnd?_eq_some_iff.2 rfl]
  rfl

/-- The end of a text is the end of its last part. -/
theorem dropEnd_append {c : Char} {t : Text} (h : t ≠ []) (a : Text) :
    dropEnd c (a ++ t) = a ++ dropEnd c t := by
  rw [dropEnd, dropEnd, stripEnd?, stripEnd?, List.getLast?_append_of_ne_nil a h,
    List.dropLast_append_of_ne_nil h]
  split <;> rfl

end Text

namespace Entry

/-! ## Separators -/

/-- Separators: colons and equals signs, and of equals signs no more than a given number. -/
def Separators (equals : Nat) (ss : List Char) : Prop :=
  (∀ s ∈ ss, s = ':' ∨ s = '=') ∧ ss.count '=' ≤ equals

/-- A separator, and whether an equals sign may stand for a colon up to it and after it. -/
inductive Separates : Bool → Char → Bool → Prop
  | colon (lenient : Bool) : Separates lenient ':' lenient
  | equals : Separates true '=' false

theorem separators_nil (equals : Nat) : Separators equals [] :=
  ⟨fun _ h => absurd h List.not_mem_nil, Nat.zero_le equals⟩

/-- **Separators, one after another.** -/
theorem separators_cons_iff {lenient : Bool} {s : Char} {ss : List Char} :
    Separators lenient.toNat (s :: ss) ↔
      ∃ after, Separates lenient s after ∧ Separators after.toNat ss := by
  constructor
  · rintro ⟨hmem, hcount⟩
    have hrest : ∀ d ∈ ss, d = ':' ∨ d = '=' := fun d hd => hmem d (List.mem_cons_of_mem s hd)
    rcases hmem s List.mem_cons_self with rfl | rfl
    · exact ⟨lenient, .colon lenient, hrest, by simpa using hcount⟩
    · rw [List.count_cons_self] at hcount
      cases lenient with
      | false => simp at hcount
      | true => exact ⟨false, .equals, hrest, by simpa using hcount⟩
  · rintro ⟨_, hs, hmem, hcount⟩
    cases hs with
    | colon => exact ⟨by simpa using hmem, by simpa using hcount⟩
    | equals => exact ⟨by simpa using hmem, by simpa using hcount⟩

/-! ## Texts without a separator -/

/-- There is no separator in the text. -/
def Unbroken (lenient : Bool) (t : Text) : Prop := ':' ∉ t ∧ (lenient = true → '=' ∉ t)

theorem Unbroken.of_lenient {t : Text} (h : Unbroken true t) (lenient : Bool) :
    Unbroken lenient t :=
  ⟨h.1, fun _ => h.2 rfl⟩

theorem unbroken_of_read? {t : Text} {w : UInt32} (h : Literal.read? t = some w) :
    Unbroken true t :=
  ⟨Literal.notMem_of_read? h (by decide) (by decide) (by decide),
    fun _ => Literal.notMem_of_read? h (by decide) (by decide) (by decide)⟩

theorem unbroken_token (w : Width) : Unbroken true w.token := by
  cases w <;> exact ⟨by decide, fun _ => by decide⟩

/-- A text has no separator, or a first one. -/
theorem unbroken_or_exists_separator (lenient : Bool) (t : Text) :
    Unbroken lenient t ∨ ∃ f s after rest,
      t = f ++ s :: rest ∧ Unbroken lenient f ∧ Separates lenient s after := by
  have hempty : Unbroken lenient [] := ⟨List.not_mem_nil, fun _ => List.not_mem_nil⟩
  induction t with
  | nil => exact .inl hempty
  | cons c t ih =>
    by_cases hcolon : c = ':'
    · exact .inr ⟨[], c, lenient, t, rfl, hempty, hcolon ▸ .colon lenient⟩
    by_cases hequals : lenient = true ∧ c = '='
    · obtain ⟨rfl, rfl⟩ := hequals
      exact .inr ⟨[], '=', false, t, rfl, hempty, .equals⟩
    -- any other character comes before the first separator
    have hcons : ∀ f, Unbroken lenient f → Unbroken lenient (c :: f) := by
      intro f hf
      refine ⟨by simp [Ne.symm hcolon, hf.1], fun hlenient => ?_⟩
      have hc : '=' ≠ c := fun h => hequals ⟨hlenient, h.symm⟩
      simp [hc, hf.2 hlenient]
    rcases ih with h | ⟨f, s, after, rest, rfl, hf, hs⟩
    · exact .inl (hcons t h)
    · exact .inr ⟨c :: f, s, after, rest, rfl, hcons f hf, hs⟩

/-! ## The fields from some point on -/

/-- The rest of a line, with an equals sign that stands for a colon replaced. -/
def withColons (lenient : Bool) (t : Text) : Text :=
  if lenient then Text.replaceFirst '=' ':' t else t

/-- The fields of the rest of a line. Behind a separator at the end of the line there is none. -/
def fieldsFrom (lenient : Bool) (t : Text) : List Text :=
  if t = [] then [] else Text.pieces ':' (Text.dropEnd ':' (withColons lenient t))

theorem withColons_eq_nil_iff {lenient : Bool} {t : Text} : withColons lenient t = [] ↔ t = [] := by
  cases lenient with
  | false => exact Iff.rfl
  | true => exact Text.replaceFirst_eq_nil_iff

theorem withColons_of_unbroken {lenient : Bool} {t : Text} (h : Unbroken lenient t) :
    withColons lenient t = t := by
  cases lenient with
  | false => rfl
  | true => exact Text.replaceFirst_of_not_mem (h.2 rfl)

theorem withColons_append {lenient after : Bool} {f : Text} (hf : Unbroken lenient f) {s : Char}
    (hs : Separates lenient s after) (rest : Text) :
    withColons lenient (f ++ s :: rest) = f ++ ':' :: withColons after rest := by
  cases hs with
  | equals => simp [withColons, Text.replaceFirst_append_of_not_mem (hf.2 rfl), Text.replaceFirst]
  | colon =>
    cases lenient with
    | false => rfl
    | true =>
      simp [withColons, Text.replaceFirst_append_of_not_mem (hf.2 rfl), Text.replaceFirst]

/-- A rest without separators is one field. -/
theorem fieldsFrom_of_unbroken {lenient : Bool} {t : Text} (hne : t ≠ []) (h : Unbroken lenient t) :
    fieldsFrom lenient t = [t] := by
  rw [fieldsFrom, if_neg hne, withColons_of_unbroken h, Text.dropEnd_of_not_mem h.1,
    Text.pieces_of_not_mem h.1]

/-- The first separator ends the first field. -/
theorem fieldsFrom_append {lenient after : Bool} {f : Text} (hf : Unbroken lenient f) {s : Char}
    (hs : Separates lenient s after) (rest : Text) :
    fieldsFrom lenient (f ++ s :: rest) = f :: fieldsFrom after rest := by
  have hne : f ++ s :: rest ≠ [] := List.append_ne_nil_of_right_ne_nil f (List.cons_ne_nil s rest)
  rw [fieldsFrom, if_neg hne, withColons_append hf hs]
  by_cases hrest : rest = []
  · -- the separator is the last character, and is not counted
    subst hrest
    rw [withColons_eq_nil_iff.2 rfl, Text.dropEnd_concat, Text.pieces_of_not_mem hf.1]
    rfl
  · have hcolons : withColons after rest ≠ [] := mt withColons_eq_nil_iff.1 hrest
    have hend : Text.dropEnd ':' (f ++ ':' :: withColons after rest) =
        f ++ ':' :: Text.dropEnd ':' (withColons after rest) := by
      rw [List.append_cons, Text.dropEnd_append hcolons, ← List.append_cons]
    rw [hend, Text.pieces_append_sep, Text.pieces_of_not_mem hf.1, fieldsFrom, if_neg hrest]
    rfl

theorem fieldsFrom_eq_nil_iff {lenient : Bool} {t : Text} : fieldsFrom lenient t = [] ↔ t = [] := by
  rw [fieldsFrom]
  split
  · next h => simp [h]
  · next h => simp [h, Text.pieces_ne_nil]

/-- **The first field** and the other ones: either it is all there is, or a separator follows it,
and the other fields come from behind that. -/
theorem fieldsFrom_eq_cons_iff {lenient : Bool} {t f : Text} {fs : List Text} (hne : f ≠ [])
    (hf : Unbroken true f) :
    fieldsFrom lenient t = f :: fs ↔
      (t = f ∧ fs = []) ∨
        ∃ s after rest, t = f ++ s :: rest ∧ Separates lenient s after ∧
          fs = fieldsFrom after rest := by
  constructor
  · intro h
    rcases unbroken_or_exists_separator lenient t with ht | ⟨g, s, after, rest, rfl, hg, hs⟩
    · have htne : t ≠ [] := by
        rintro rfl
        exact nomatch h
      rw [fieldsFrom_of_unbroken htne ht] at h
      obtain ⟨rfl, rfl⟩ := List.cons.inj h
      exact .inl ⟨rfl, rfl⟩
    · rw [fieldsFrom_append hg hs] at h
      obtain ⟨rfl, rfl⟩ := List.cons.inj h
      exact .inr ⟨s, after, rest, rfl, hs, rfl⟩
  · rintro (⟨rfl, rfl⟩ | ⟨s, after, rest, rfl, hs, rfl⟩)
    · exact fieldsFrom_of_unbroken hne (hf.of_lenient lenient)
    · exact fieldsFrom_append (hf.of_lenient lenient) hs rest

/-- The fields from the start of a line on are its fields. -/
theorem decode?_eq_ofFields? (line : Text) : decode? line = ofFields? (fieldsFrom true line) := by
  rw [fieldsFrom]
  split
  · next h =>
    rw [h]
    rfl
  · rfl

end Entry

end FramePatch
