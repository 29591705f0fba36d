import FramePatch.Proofs.Ini.Edits
import FramePatch.Source
import Mathlib.Data.List.Forall2

/-!
# Edits of owned sections

Whoever edits a store owns the sections it edits. All other sections are kept as they are, raw lines
and spelling of the name included, in the order they had; an owned section that is missing is
appended, and no other section is.

- `EditedOnly`: a store comes from another one by such edits. One edit does (`editedOnly_edit`), and
  so do edits in a row, if no two of them go by one name (`EditedOnly.trans`).
- `EditedOnly.find?_other`: sections that are not owned are found as they were, so their effective
  lines and their rows are the same (`EditedOnly.lines_other`, `EditedOnly.rows_other`).
-/

namespace FramePatch.Ini

/-- The section `s'` has the name of `s`, and unless that name is owned, its lines. -/
def Section.KeptBut (s : Section) (owned : List Text) (s' : Section) : Prop :=
  s'.name = s.name ∧ ((∀ name ∈ owned, s.isNamed name = false) → s'.lines = s.lines)

/-- A section that is not owned is as it was. -/
theorem Section.KeptBut.eq {owned : List Text} {s s' : Section} (h : s.KeptBut owned s')
    (hnot : ∀ name ∈ owned, s.isNamed name = false) : s' = s := by
  obtain ⟨name, lines⟩ := s
  obtain ⟨name', lines'⟩ := s'
  exact congrArg₂ Section.mk h.1 (h.2 hnot)

namespace Store

/-- The store `after` has the sections of `before`, changed in nothing but the lines of owned
sections, and after them those owned sections that were missing. -/
def EditedOnly (owned : List Text) (before after : Store) : Prop :=
  ∃ kept added, after.sections = kept ++ added ∧
    List.Forall₂ (·.KeptBut owned ·) before.sections kept ∧
    added.map (·.name) = owned.filter fun name => !before.hasSection name

/-! ## Kept sections -/

section Kept

variable {owned more : List Text} {ss ks ls : List Section}

theorem forall₂_keptBut_refl (owned : List Text) (ss : List Section) :
    List.Forall₂ (·.KeptBut owned ·) ss ss :=
  List.forall₂_same.2 fun _ _ => ⟨rfl, fun _ => rfl⟩

theorem forall₂_keptBut_trans (h : List.Forall₂ (·.KeptBut owned ·) ss ks)
    (h' : List.Forall₂ (·.KeptBut more ·) ks ls) :
    List.Forall₂ (·.KeptBut (owned ++ more) ·) ss ls := by
  induction h generalizing ls with
  | nil =>
    obtain rfl := List.forall₂_nil_left_iff.1 h'
    exact .nil
  | @cons s k rest krest hkept _ ih =>
    obtain ⟨l, lrest, hkept', hrest, rfl⟩ := List.forall₂_cons_left_iff.1 h'
    refine .cons ⟨hkept'.1.trans hkept.1, fun hnot => ?_⟩ (ih hrest)
    obtain ⟨howned, hmore⟩ := List.forall_mem_append.1 hnot
    -- the name is the same, so it is as little owned by the second edits
    have hmore' : ∀ name ∈ more, k.isNamed name = false := by
      intro name hname
      rw [Section.isNamed, hkept.1]
      exact hmore name hname
    exact (hkept'.2 hmore').trans (hkept.2 howned)

theorem names_of_keptBut (h : List.Forall₂ (·.KeptBut owned ·) ss ks) :
    ks.map (·.name) = ss.map (·.name) := by
  induction h with
  | nil => rfl
  | cons hkept _ ih => rw [List.map_cons, List.map_cons, hkept.1, ih]

/-- A section that is not owned is found where it was. -/
theorem find?_of_keptBut (h : List.Forall₂ (·.KeptBut owned ·) ss ks) {asked : Text}
    (hasked : ∀ name ∈ owned, Text.fold asked ≠ Text.fold name) :
    ks.find? (·.isNamed asked) = ss.find? (·.isNamed asked) := by
  induction h with
  | nil => rfl
  | @cons s k rest krest hkept _ ih =>
    have hname : k.isNamed asked = s.isNamed asked := by
      rw [Section.isNamed, hkept.1, Section.isNamed]
    cases hs : s.isNamed asked with
    | false =>
      rw [List.find?_cons_of_neg (by simp [hname, hs]), List.find?_cons_of_neg (by simp [hs]), ih]
    | true =>
      have hnot : ∀ name ∈ owned, s.isNamed name = false := fun name hmem =>
        isNamed_other (hasked name hmem) hs
      rw [List.find?_cons_of_pos (by rw [hname, hs]), List.find?_cons_of_pos hs, hkept.eq hnot]

end Kept

/-! ## Edits -/

/-- **One edit** owns the section it names. -/
theorem editedOnly_edit (store : Store) (name : Text) (f : List Text → List Text) :
    EditedOnly [name] store (store.edit name f) := by
  obtain ⟨ss⟩ := store
  simp only [EditedOnly, edit, hasSection, find?]
  induction ss with
  | nil => exact ⟨[], [⟨name, f []⟩], rfl, .nil, rfl⟩
  | cons s rest ih =>
    rw [editSection]
    cases hs : s.isNamed name with
    | true =>
      refine ⟨{ s with lines := f s.lines } :: rest, [], by simp, .cons ⟨rfl, ?_⟩ ?_, ?_⟩
      · intro hnot
        rw [hnot name List.mem_cons_self] at hs
        cases hs
      · exact forall₂_keptBut_refl [name] rest
      · simp [hs]
    | false =>
      obtain ⟨kept, added, hsections, hkept, hadded⟩ := ih
      refine ⟨s :: kept, added, ?_, .cons ⟨rfl, fun _ => rfl⟩ hkept, ?_⟩
      · simp [hsections]
      · refine hadded.trans (List.filter_congr fun other hother => ?_)
        obtain rfl := List.mem_singleton.1 hother
        rw [List.find?_cons_of_neg (by simp [hs])]

namespace EditedOnly

variable {owned more : List Text} {before between after : Store}

/-- **Other sections** are found as they were. -/
theorem find?_other (h : EditedOnly owned before after) {asked : Text}
    (hasked : ∀ name ∈ owned, Text.fold asked ≠ Text.fold name) :
    after.find? asked = before.find? asked := by
  obtain ⟨kept, added, hsections, hkept, hadded⟩ := h
  have hnone : added.find? (·.isNamed asked) = none := by
    rw [List.find?_eq_none]
    intro s hs hnamed
    have hname : s.name ∈ owned := (List.mem_filter.1 (hadded ▸ List.mem_map_of_mem hs)).1
    exact hasked s.name hname (Text.sameFolded_iff.1 hnamed).symm
  rw [find?, find?, hsections, List.find?_append, hnone, Option.or_none,
    find?_of_keptBut hkept hasked]

/-- Their effective lines are the same. -/
theorem lines_other (h : EditedOnly owned before after) {asked : Text}
    (hasked : ∀ name ∈ owned, Text.fold asked ≠ Text.fold name) :
    after.toSource.lines asked = before.toSource.lines asked := by
  show after.lines asked = before.lines asked
  rw [Store.lines, Store.lines, rawLines, rawLines, h.find?_other hasked]

/-- So are their rows. -/
theorem rows_other (h : EditedOnly owned before after) {asked : Text}
    (hasked : ∀ name ∈ owned, Text.fold asked ≠ Text.fold name) :
    after.toSource.rows asked = before.toSource.rows asked := by
  show after.rows asked = before.rows asked
  rw [rows, rows, rawLines, rawLines, h.find?_other hasked]

/-- **Edits in a row** own what each of them owns, if no two of them go by one name. -/
theorem trans (h : EditedOnly owned before between) (h' : EditedOnly more between after)
    (hdisjoint : ∀ name ∈ more, ∀ other ∈ owned, Text.fold name ≠ Text.fold other) :
    EditedOnly (owned ++ more) before after := by
  have hmissing : (more.filter fun name => !between.hasSection name) =
      more.filter fun name => !before.hasSection name := by
    refine List.filter_congr fun name hname => ?_
    rw [hasSection, hasSection, h.find?_other (hdisjoint name hname)]
  obtain ⟨kept, added, hsections, hkept, hadded⟩ := h
  obtain ⟨kept', added', hsections', hkept', hadded'⟩ := h'
  rw [hsections] at hkept'
  -- what the second edits keep falls into what the first ones kept and what they added
  have hfirst := List.forall₂_take kept.length hkept'
  have hsecond := List.forall₂_drop kept.length hkept'
  rw [List.take_left] at hfirst
  rw [List.drop_left] at hsecond
  refine ⟨kept'.take kept.length, kept'.drop kept.length ++ added', ?_, ?_, ?_⟩
  · rw [← List.append_assoc, List.take_append_drop, hsections']
  · exact forall₂_keptBut_trans hkept hfirst
  · rw [List.map_append, names_of_keptBut hsecond, hadded, hadded', hmissing, List.filter_append]

end EditedOnly

end Store

end FramePatch.Ini
