/-!
# Texts

A text is the list of its characters, so that every reader and printer of this library is a
recursion on its data. Strings of the outer world are turned into texts at the edge.

Cutting comes in two forms, and each is pinned down by a law:

* `Text.cut?` cuts at the first occurrence of a separator. `cut?_eq_some_iff`: the two parts and
  the separator make up the text, and the first part has no separator.
* `Text.pieces` cuts at every occurrence. `join_pieces`: joining the pieces gives the text back;
  `pieces_join`: pieces without separators are found again in their join.
-/

namespace FramePatch

/-- A text: the list of its characters. -/
abbrev Text := List Char

namespace Text

/-- The text of a string. -/
def ofString (s : String) : Text := s.toList

/-- The string of a text. -/
def toStr (t : Text) : String := String.ofList t

@[simp] theorem toStr_ofString (s : String) : toStr (ofString s) = s := by
  simp [toStr, ofString]

@[simp] theorem ofString_toStr (t : Text) : ofString (toStr t) = t := by
  simp [toStr, ofString]

/-! ## Cutting at the first separator -/

/-- The parts before and after the first `sep`, if there is one. -/
def cut? (sep : Char) : Text → Option (Text × Text)
  | [] => none
  | c :: t => if c = sep then some ([], t) else (cut? sep t).map fun p => (c :: p.1, p.2)

theorem cut?_eq_some_iff {sep : Char} {t a b : Text} :
    cut? sep t = some (a, b) ↔ t = a ++ sep :: b ∧ sep ∉ a := by
  induction t generalizing a with
  | nil => simp [cut?]
  | cons c t ih =>
    by_cases hc : c = sep
    · subst hc
      simp only [cut?, if_true, Option.some.injEq, Prod.mk.injEq]
      constructor
      · rintro ⟨rfl, rfl⟩
        simp
      · rintro ⟨h, hn⟩
        cases a with
        | nil => simpa using h
        | cons d a => simp_all
    · simp only [cut?, hc, if_false, Option.map_eq_some_iff, Prod.exists, Prod.mk.injEq]
      constructor
      · rintro ⟨a', b', h, rfl, rfl⟩
        obtain ⟨rfl, hn⟩ := ih.1 h
        exact ⟨rfl, by simp [hn, Ne.symm hc]⟩
      · rintro ⟨h, hn⟩
        cases a with
        | nil => simp at h; exact absurd h.1 hc
        | cons d a =>
          simp only [List.cons_append, List.cons.injEq] at h
          simp only [List.mem_cons, not_or] at hn
          exact ⟨a, b, ih.2 ⟨h.2, hn.2⟩, by rw [h.1], rfl⟩

theorem cut?_eq_none_iff {sep : Char} {t : Text} : cut? sep t = none ↔ sep ∉ t := by
  induction t with
  | nil => simp [cut?]
  | cons c t ih =>
    by_cases hc : c = sep
    · simp [cut?, hc]
    · simp [cut?, hc, ih, Ne.symm hc]

/-! ## Cutting at every separator -/

/-- The pieces of a text between the occurrences of `sep`; the empty text has one empty piece. -/
def pieces (sep : Char) : Text → List Text
  | [] => [[]]
  | c :: t => if c = sep then [] :: pieces sep t else (pieces sep t).modifyHead (c :: ·)

/-- The pieces put together again, with `sep` between them. -/
def join (sep : Char) : List Text → Text
  | [] => []
  | [p] => p
  | p :: q :: ps => p ++ sep :: join sep (q :: ps)

theorem pieces_ne_nil (sep : Char) (t : Text) : pieces sep t ≠ [] := by
  induction t with
  | nil => simp [pieces]
  | cons c t ih =>
    by_cases hc : c = sep
    · simp [pieces, hc]
    · simpa [pieces, hc] using ih

/-- Nothing is lost by cutting into pieces. -/
theorem join_pieces (sep : Char) (t : Text) : join sep (pieces sep t) = t := by
  induction t with
  | nil => rfl
  | cons c t ih =>
    obtain ⟨p, ps, hp⟩ := List.exists_cons_of_ne_nil (pieces_ne_nil sep t)
    rw [hp] at ih
    by_cases hc : c = sep
    · simp [pieces, hc, hp, join, ih]
    · cases ps with
      | nil => simp_all [pieces, join]
      | cons q qs => simp_all [pieces, join]

/-- No piece has a separator. -/
theorem not_mem_of_mem_pieces {sep : Char} {t p : Text} (h : p ∈ pieces sep t) : sep ∉ p := by
  induction t generalizing p with
  | nil => simp_all [pieces]
  | cons c t ih =>
    by_cases hc : c = sep
    · simp only [pieces, hc, if_true, List.mem_cons] at h
      rcases h with rfl | h
      · simp
      · exact ih h
    · obtain ⟨q, qs, hq⟩ := List.exists_cons_of_ne_nil (pieces_ne_nil sep t)
      simp only [pieces, hc, if_false, hq, List.modifyHead_cons, List.mem_cons] at h
      rcases h with rfl | h
      · have : sep ∉ q := ih (by simp [hq])
        simp [this, Ne.symm hc]
      · exact ih (by simp [hq, h])

/-- Cutting at a separator cuts the texts on both sides of it. -/
theorem pieces_append_sep (sep : Char) (a b : Text) :
    pieces sep (a ++ sep :: b) = pieces sep a ++ pieces sep b := by
  induction a with
  | nil => simp [pieces]
  | cons c a ih =>
    by_cases hc : c = sep
    · simp [pieces, hc, ih]
    · obtain ⟨p, ps, hp⟩ := List.exists_cons_of_ne_nil (pieces_ne_nil sep a)
      simp [pieces, hc, ih, hp]

theorem pieces_of_not_mem {sep : Char} {t : Text} (h : sep ∉ t) : pieces sep t = [t] := by
  induction t with
  | nil => rfl
  | cons c t ih =>
    simp only [List.mem_cons, not_or] at h
    simp [pieces, Ne.symm h.1, ih h.2]

/-- Pieces without separators are found again in their join. -/
theorem pieces_join {sep : Char} {ps : List Text} (hne : ps ≠ []) (h : ∀ p ∈ ps, sep ∉ p) :
    pieces sep (join sep ps) = ps := by
  induction ps with
  | nil => exact absurd rfl hne
  | cons p ps ih =>
    have hp : pieces sep p = [p] := pieces_of_not_mem (h p List.mem_cons_self)
    cases ps with
    | nil => exact hp
    | cons q qs =>
      have hq := ih (List.cons_ne_nil q qs) fun r hr => h r (List.mem_cons_of_mem p hr)
      rw [join, pieces_append_sep, hp, hq]
      rfl

theorem mem_join {sep c : Char} {ps : List Text} (h : c ∈ join sep ps) :
    c = sep ∨ ∃ p ∈ ps, c ∈ p := by
  induction ps with
  | nil => simp [join] at h
  | cons p ps ih =>
    cases ps with
    | nil => exact .inr ⟨p, List.mem_cons_self, h⟩
    | cons q qs =>
      rw [join, List.mem_append, List.mem_cons] at h
      rcases h with h | h | h
      · exact .inr ⟨p, List.mem_cons_self, h⟩
      · exact .inl h
      · exact (ih h).imp_right fun ⟨r, hr, hc⟩ => ⟨r, List.mem_cons_of_mem p hr, hc⟩

/-! ## Single characters at the ends -/

/-- The text with its first `old`, if any, replaced by `new`. -/
def replaceFirst (old new : Char) : Text → Text
  | [] => []
  | c :: t => if c = old then new :: t else c :: replaceFirst old new t

/-- The text without its first character, if that is `c`. -/
def stripStart? (c : Char) : Text → Option Text
  | [] => none
  | d :: t => if d = c then some t else none

/-- The text without its last character, if that is `c`. -/
def stripEnd? (c : Char) (t : Text) : Option Text :=
  if t.getLast? = some c then some t.dropLast else none

theorem replaceFirst_of_not_mem {old new : Char} {t : Text} (h : old ∉ t) :
    replaceFirst old new t = t := by
  induction t with
  | nil => rfl
  | cons c t ih =>
    simp only [List.mem_cons, not_or] at h
    simp [replaceFirst, Ne.symm h.1, ih h.2]

theorem stripStart?_eq_some_iff {c : Char} {t r : Text} :
    stripStart? c t = some r ↔ t = c :: r := by
  cases t with
  | nil => simp [stripStart?]
  | cons d t =>
    by_cases h : d = c <;> simp [stripStart?, h]

theorem stripEnd?_eq_some_iff {c : Char} {t r : Text} :
    stripEnd? c t = some r ↔ t = r ++ [c] := by
  unfold stripEnd?
  split
  · next h =>
    obtain ⟨ys, rfl⟩ := List.getLast?_eq_some_iff.1 h
    simp
  · next h =>
    simp only [reduceCtorEq, false_iff]
    rintro rfl
    simp at h

end Text

end FramePatch
