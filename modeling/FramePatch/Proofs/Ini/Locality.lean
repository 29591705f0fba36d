import FramePatch.Ini.Row
import FramePatch.Proofs.Ini.Edits

/-!
# Edits keep to their section

Whatever texts an edit is given, it changes one section, and it is found again by the same name in
any case. So no edit makes a second section that would hide another one (`distinct_editAll`), and no
other section can tell that there was an edit (`sameAnswers_edit`).

Two edits of different sections can therefore change places: every question about the store is
answered in the same way after both (`sameAnswers_edit_edit`), and if the sections are there, the
store is the same (`edits_local`). Where both are missing, the stores differ in the order of the two
sections that are appended.
-/

namespace FramePatch.Ini

/-- An edit of a section: of one row, or of all its lines. -/
inductive Edit where
  | set (name key value : Text)
  | setLines (name : Text) (lines : List Text)

namespace Edit

/-- The section that an edit names. -/
def target : Edit → Text
  | .set name _ _ => name
  | .setLines name _ => name

/-- What becomes of the lines of that section. -/
def change : Edit → List Text → List Text
  | .set _ key value => setRow key value
  | .setLines _ lines => fun _ => lines

/-- Makes an edit. -/
def apply (e : Edit) (store : Store) : Store :=
  match e with
  | .set name key value => store.set name key value
  | .setLines name lines => store.setLines name lines

theorem apply_eq (e : Edit) (store : Store) : e.apply store = store.edit e.target e.change := by
  cases e <;> rfl

end Edit

namespace Store

/-! ## What is asked of a section -/

/-- All that can be asked about the section `asked` is answered alike by both stores. -/
structure SameAnswers (asked : Text) (store other : Store) : Prop where
  lines : other.lines asked = store.lines asked
  rows : other.rows asked = store.rows asked
  get? : ∀ key, other.get? asked key = store.get? asked key
  hasSection : other.hasSection asked = store.hasSection asked

/-- The answers are read off the raw lines, and whether there is a section. -/
theorem SameAnswers.of_rawLines {asked : Text} {store other : Store}
    (hlines : other.rawLines asked = store.rawLines asked)
    (hsection : other.hasSection asked = store.hasSection asked) :
    SameAnswers asked store other := by
  have hrows : other.rows asked = store.rows asked := by rw [Store.rows, hlines, Store.rows]
  refine ⟨?_, hrows, fun key => ?_, hsection⟩
  · rw [Store.lines, hlines, Store.lines]
  · rw [Store.get?, hrows, Store.get?]

variable {a b : Text}

/-- **Other sections** are not changed by an edit. -/
theorem sameAnswers_edit (store : Store) (f : List Text → List Text) {asked : Text}
    (h : Text.fold asked ≠ Text.fold a) : SameAnswers asked store (store.edit a f) := by
  refine .of_rawLines ?_ ?_
  · rw [rawLines_edit, if_neg h]
  · rw [hasSection, find?_edit_other store f h, hasSection]

/-- **Edits of two sections**, in either order, leave the same answers. -/
theorem sameAnswers_edit_edit (store : Store) (f g : List Text → List Text)
    (hab : Text.fold a ≠ Text.fold b) (asked : Text) :
    SameAnswers asked ((store.edit b g).edit a f) ((store.edit a f).edit b g) := by
  refine .of_rawLines ?_ ?_
  · simp only [rawLines_edit]
    by_cases ha : Text.fold asked = Text.fold a
    · have hb : Text.fold asked ≠ Text.fold b := fun hb => hab (ha.symm.trans hb)
      rw [if_neg hb, if_neg hb]
    · rw [if_neg ha, if_neg ha]
  · rw [Bool.eq_iff_iff]
    simp only [hasSection_edit, or_assoc]
    rw [or_comm (a := Text.fold asked = Text.fold a)]

/-! ## Edits in any number -/

/-- The store that editing starts from: an empty one, or what a text describes. -/
def initial : Option Text → Store
  | none => .empty
  | some text => .parse text

/-- The store after edits, one after another. -/
def editAll (store : Store) (edits : List Edit) : Store := edits.foldl (fun s e => e.apply s) store

/-- No edit makes a second section of a name. -/
theorem distinct_editAll {store : Store} (h : (store.names.map Text.fold).Nodup)
    (edits : List Edit) : ((store.editAll edits).names.map Text.fold).Nodup := by
  induction edits generalizing store with
  | nil => exact h
  | cons e rest ih =>
    have hone : ((e.apply store).names.map Text.fold).Nodup := by
      rw [e.apply_eq]
      exact distinct_edit e.target e.change h
    exact ih hone

theorem distinct_initial (start : Option Text) :
    ((initial start).names.map Text.fold).Nodup := by
  cases start with
  | none => exact wellFormed_empty.distinct
  | some text => exact (wellFormed_parse text).distinct

/-- **Edits keep to their section**, on every store that is made by edits from an empty one or from
a text. No two of its sections have names that differ in case only. An edit leaves the names that
are there, in their spelling and order, and appends its own if it is missing; it changes no answer
about any other section. Two edits of different sections leave the same answers about all sections
in either order, and the same store if both sections are there. -/
theorem edits_local (start : Option Text) (edits : List Edit) :
    let store := (initial start).editAll edits
    (store.names.map Text.fold).Nodup ∧
      ∀ e : Edit,
        (e.apply store).names =
            store.names ++ (if store.hasSection e.target then [] else [e.target]) ∧
          (∀ asked, Text.fold asked ≠ Text.fold e.target →
            SameAnswers asked store (e.apply store)) ∧
          ∀ e' : Edit, Text.fold e.target ≠ Text.fold e'.target →
            (∀ asked, SameAnswers asked (e.apply (e'.apply store)) (e'.apply (e.apply store))) ∧
              (store.hasSection e.target → store.hasSection e'.target →
                e'.apply (e.apply store) = e.apply (e'.apply store)) := by
  intro store
  refine ⟨distinct_editAll (distinct_initial start) edits, fun e => ?_⟩
  simp only [Edit.apply_eq]
  refine ⟨names_edit store e.target e.change, fun asked h => ?_,
    fun e' h => ⟨?_, fun hsection _ => ?_⟩⟩
  · exact sameAnswers_edit store e.change h
  · exact sameAnswers_edit_edit store e.change e'.change h
  · exact edit_comm e.change e'.change h hsection

/-- Two edits of sections that are both missing. The order of the edits is the order in which they
are appended, and all answers are the same. -/
theorem edits_local_missing :
    let store := (initial (some "[A]\n1\n".toList)).editAll [.setLines ['a'] [[' ']]]
    let first : Edit := .set ['B'] ['k'] ['1']
    let second : Edit := .setLines ['c'] []
    Text.fold first.target ≠ Text.fold second.target ∧
      second.apply (first.apply store) ≠ first.apply (second.apply store) ∧
      ∀ asked, SameAnswers asked (first.apply (second.apply store))
        (second.apply (first.apply store)) := by
  intro store first second
  have hother : Text.fold first.target ≠ Text.fold second.target := by decide
  refine ⟨hother, by decide, ?_⟩
  exact (((edits_local (some "[A]\n1\n".toList) [.setLines ['a'] [[' ']]]).2 first).2.2
    second hother).1

end Store

end FramePatch.Ini
