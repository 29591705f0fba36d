import FramePatch.Proofs.Ini.WellFormed

/-!
# Edits in a row

What an edit does is seen in the names (`names_edit`) and in the raw lines (`rawLines_edit`). Of two
edits of one section the second one starts from what the first one left (`edit_edit_self`),
so lines that are set twice are as they were set last. Edits of two sections can change places
(`edit_comm`), provided that one of the sections is there: where both are missing, they are
appended in the order of the edits. Where a section is there, its lines may as well be set first
(`setLines_comm`).
-/

namespace FramePatch.Ini

namespace Store

/-- An edit leaves a section of its name, and all sections that were there. -/
theorem hasSection_edit {store : Store} {name asked : Text} {f : List Text → List Text} :
    (store.edit name f).hasSection asked ↔
      store.hasSection asked ∨ Text.fold asked = Text.fold name := by
  by_cases hs : store.hasSection name
  · rw [hasSection_iff, names_edit_of_mem f hs, ← hasSection_iff]
    refine ⟨Or.inl, fun h => h.elim id fun hsame => ?_⟩
    rw [hasSection_iff, hsame, ← hasSection_iff]
    exact hs
  · rw [hasSection_iff, names_edit_of_not_mem f (by simpa using hs), hasSection_iff]
    simp

/-- **The names after an edit** are those before it; a section that was missing comes last. -/
theorem names_edit (store : Store) (name : Text) (f : List Text → List Text) :
    (store.edit name f).names = store.names ++ if store.hasSection name then [] else [name] := by
  by_cases hs : store.hasSection name
  · rw [names_edit_of_mem f hs, if_pos hs, List.append_nil]
  · rw [names_edit_of_not_mem f (by simpa using hs), if_neg hs]

/-- **The raw lines after an edit**, whatever section is asked for. -/
theorem rawLines_edit (store : Store) (name asked : Text) (f : List Text → List Text) :
    (store.edit name f).rawLines asked =
      if Text.fold asked = Text.fold name then f (store.rawLines asked)
      else store.rawLines asked := by
  split
  · next hsame => exact rawLines_edit_self store f hsame
  · next hother => rw [rawLines, find?_edit_other store f hother, rawLines]

/-- Two edits of one section are one. -/
theorem edit_edit_self (store : Store) (name : Text) (f g : List Text → List Text) :
    (store.edit name f).edit name g = store.edit name fun lines => g (f lines) := by
  obtain ⟨ss⟩ := store
  simp only [edit, mk.injEq]
  induction ss with
  | nil => simp [editSection, Section.isNamed, Text.sameFolded]
  | cons s rest ih =>
    by_cases hs : s.isNamed name
    · have hedited : ({ s with lines := f s.lines } : Section).isNamed name := hs
      simp [editSection, hs, hedited]
    · simp [editSection, hs, ih]

/-- Lines that are set twice are as they were set last. -/
theorem setLines_setLines_self (store : Store) (name : Text) (lines more : List Text) :
    (store.setLines name lines).setLines name more = store.setLines name more :=
  store.edit_edit_self name _ _

/-- A section goes by one name only. -/
theorem isNamed_other {s : Section} {a b : Text} (hab : Text.fold a ≠ Text.fold b)
    (ha : s.isNamed a) : s.isNamed b = false := by
  rw [Bool.eq_false_iff]
  intro hb
  rw [Section.isNamed, Text.sameFolded_iff] at ha hb
  exact hab (ha.symm.trans hb)

/-- Edits of two sections can change places, if one of the sections is there. -/
theorem edit_comm {store : Store} {a b : Text} (f g : List Text → List Text)
    (hab : Text.fold a ≠ Text.fold b) (ha : store.hasSection a) :
    (store.edit a f).edit b g = (store.edit b g).edit a f := by
  obtain ⟨ss⟩ := store
  simp only [hasSection, find?, List.find?_isSome] at ha
  simp only [edit, mk.injEq]
  induction ss with
  | nil => simp at ha
  | cons s rest ih =>
    by_cases hsa : s.isNamed a
    · -- the section is edited where it stands, and the other one behind it
      have hsb : s.isNamed b = false := isNamed_other hab hsa
      have hedited : ({ s with lines := f s.lines } : Section).isNamed b = false := hsb
      simp [editSection, hsa, hsb, hedited]
    · by_cases hsb : s.isNamed b
      · have hedited : ({ s with lines := g s.lines } : Section).isNamed a = false :=
          Bool.eq_false_iff.2 hsa
        simp [editSection, hsa, hsb, hedited]
      · simp only [List.mem_cons, exists_eq_or_imp, hsa, false_or, Bool.false_eq_true] at ha
        simp [editSection, hsa, hsb, ih ha]

/-- Lines of a section that is there may as well be set first. -/
theorem setLines_comm {store : Store} {a b : Text} (as bs : List Text)
    (hab : Text.fold a ≠ Text.fold b) (ha : store.hasSection a) :
    (store.setLines b bs).setLines a as = (store.setLines a as).setLines b bs :=
  (edit_comm _ _ hab ha).symm

end Store

end FramePatch.Ini
