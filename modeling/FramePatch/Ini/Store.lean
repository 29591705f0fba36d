import FramePatch.Text.Fold

/-!
# Ini stores

A store is a list of named sections, each a list of raw lines. Names are compared up to case, and
the first section of a name is the one that counts; an edit of a missing section appends it, in
the spelling that the edit uses. So the sections that exist keep their order and their spelling
under every edit, which `names_edit_of_mem` and `names_edit_of_not_mem` state; and an edit is seen
in the section it names (`rawLines_edit_self`) and in no other (`find?_edit_other`).
-/

namespace FramePatch.Ini

/-- A named list of raw lines. -/
structure Section where
  name : Text
  lines : List Text
deriving DecidableEq, Repr

/-- A configuration held in memory. -/
structure Store where
  sections : List Section := []
deriving DecidableEq, Repr

/-- Whether a section goes by the given name, in any case. -/
def Section.isNamed (name : Text) (s : Section) : Bool := Text.sameFolded s.name name

/-- Changes the lines of the first section called `name`; a missing one is appended. -/
def editSection (name : Text) (f : List Text → List Text) : List Section → List Section
  | [] => [⟨name, f []⟩]
  | s :: rest =>
    if s.isNamed name then { s with lines := f s.lines } :: rest
    else s :: editSection name f rest

namespace Store

/-- The store without sections. -/
def empty : Store := {}

/-- The section called `name`. -/
def find? (store : Store) (name : Text) : Option Section :=
  store.sections.find? (·.isNamed name)

/-- Whether there is a section called `name`. -/
def hasSection (store : Store) (name : Text) : Bool := (store.find? name).isSome

/-- The raw lines of the section called `name`, none if it is missing. -/
def rawLines (store : Store) (name : Text) : List Text :=
  ((store.find? name).map (·.lines)).getD []

/-- Changes the lines of the section called `name`, creating it if it is missing. -/
def edit (store : Store) (name : Text) (f : List Text → List Text) : Store :=
  ⟨editSection name f store.sections⟩

/-- Makes `lines` the lines of the section called `name`. -/
def setLines (store : Store) (name : Text) (lines : List Text) : Store :=
  store.edit name fun _ => lines

/-! ## What an edit changes -/

theorem isNamed_congr {a b : Text} (h : Text.fold a = Text.fold b) (s : Section) :
    s.isNamed a = s.isNamed b := by
  simp [Section.isNamed, Text.sameFolded, h]

/-- An edit changes the lines of the section it names, whatever case the name is asked for in. -/
theorem rawLines_edit_self (store : Store) {name asked : Text} (f : List Text → List Text)
    (h : Text.fold asked = Text.fold name) :
    (store.edit name f).rawLines asked = f (store.rawLines asked) := by
  obtain ⟨ss⟩ := store
  simp only [rawLines, find?, edit]
  induction ss with
  | nil => simp [editSection, Section.isNamed, Text.sameFolded, h]
  | cons s rest ih =>
    have ha : s.isNamed asked = s.isNamed name := isNamed_congr h s
    by_cases hs : s.isNamed name
    · have hn : ({ s with lines := f s.lines } : Section).isNamed asked := by
        simpa [Section.isNamed] using ha.trans hs
      simp [editSection, hs, ha, hn]
    · simpa [editSection, hs, ha] using ih

/-- An edit changes no section of another name, and makes none. -/
theorem find?_edit_other (store : Store) {name asked : Text} (f : List Text → List Text)
    (h : Text.fold asked ≠ Text.fold name) :
    (store.edit name f).find? asked = store.find? asked := by
  obtain ⟨ss⟩ := store
  simp only [find?, edit]
  induction ss with
  | nil => simp [editSection, Section.isNamed, Text.sameFolded, Ne.symm h]
  | cons s rest ih =>
    by_cases hs : s.isNamed name
    · have hname : Text.fold s.name = Text.fold name := by
        simpa [Section.isNamed, Text.sameFolded] using hs
      have hasked : s.isNamed asked = false := by
        simpa [Section.isNamed, Text.sameFolded, hname] using Ne.symm h
      have hedited : ({ s with lines := f s.lines } : Section).isNamed asked = false := hasked
      simp [editSection, hs, hasked, hedited]
    · by_cases ha : s.isNamed asked
      · simp [editSection, hs, ha]
      · simpa [editSection, hs, ha] using ih

/-- The section names, in their order and spelling. -/
def names (store : Store) : List Text := store.sections.map (·.name)

theorem names_edit_of_mem {store : Store} {name : Text} (f : List Text → List Text)
    (h : store.hasSection name) : (store.edit name f).names = store.names := by
  obtain ⟨ss⟩ := store
  simp only [hasSection, find?, List.find?_isSome] at h
  simp only [names, edit]
  induction ss with
  | nil => simp at h
  | cons s rest ih =>
    by_cases hs : s.isNamed name
    · simp [editSection, hs]
    · simp only [List.mem_cons, exists_eq_or_imp, hs, false_or, Bool.false_eq_true] at h
      simp [editSection, hs, ih h]

theorem names_edit_of_not_mem {store : Store} {name : Text} (f : List Text → List Text)
    (h : store.hasSection name = false) :
    (store.edit name f).names = store.names ++ [name] := by
  obtain ⟨ss⟩ := store
  simp only [hasSection, find?, Option.isSome_eq_false_iff, Option.isNone_iff_eq_none,
    List.find?_eq_none] at h
  simp only [names, edit]
  induction ss with
  | nil => simp [editSection]
  | cons s rest ih =>
    have hs : s.isNamed name = false := by simpa using h s (by simp)
    simp [editSection, hs, ih fun x hx => h x (by simp [hx])]

end Store

end FramePatch.Ini
