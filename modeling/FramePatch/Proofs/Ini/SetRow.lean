import FramePatch.Ini.Row
import FramePatch.Proofs.Ini.WellFormed

/-!
# Setting rows

A row that is set takes the place of the last row with its key, or comes last (`setRow_eq`). Which
row that is, is decided by the text of its key; all other lines stay where they are
(`oneRowSet_setRow`), so a row behind it, under another key that means the same, is still read after
the one that was set.

- `row?_rowLine`: the line of a row reads back as the row, if its key is plain.
- `rows_set_self`: so the rows of a section are those in front, the one that was set, and those
  behind it.
- `WellFormed.set`: a store stays well-formed, if the line of the row is plain.
-/

namespace FramePatch.Ini

/-! ## The place of a row -/

/-- The lines in front of the last row with a key; all lines if there is no such row. -/
def linesBeforeRow (key : Text) (lines : List Text) : List Text :=
  if lines.any (isRowOf key) then (lines.rdropWhile (!isRowOf key ·)).dropLast else lines

/-- The lines after the last row with a key; none if there is no such row. -/
def linesAfterRow (key : Text) (lines : List Text) : List Text :=
  if lines.any (isRowOf key) then lines.rtakeWhile (!isRowOf key ·) else []

/-- A line with a row of the key has such a row, and no other line has. -/
theorem isRowOf_iff {key line : Text} :
    isRowOf key line ↔ ∃ r, row? line = some r ∧ Text.fold r.1 = Text.fold key := by
  rw [isRowOf, Option.any_eq_true]
  simp only [Text.sameFolded_iff]

/-- Nothing is replaced where nothing satisfies `p`. -/
theorem replaceLast?_eq_none {p : Text → Bool} {new : Text} {lines : List Text}
    (h : ∀ l ∈ lines, p l = false) : replaceLast? p new lines = none := by
  induction lines with
  | nil => rfl
  | cons l rest ih =>
    rw [replaceLast?, ih fun k hk => h k (List.mem_cons_of_mem l hk)]
    simp [h l List.mem_cons_self]

/-- Whatever satisfies `p` for the last time is replaced. -/
theorem replaceLast?_append_cons {p : Text → Bool} {new line : Text} {before after : List Text}
    (hline : p line) (hafter : ∀ l ∈ after, p l = false) :
    replaceLast? p new (before ++ line :: after) = some (before ++ new :: after) := by
  induction before with
  | nil => simp [replaceLast?, replaceLast?_eq_none hafter, hline]
  | cons l rest ih => simp [replaceLast?, ih]

/-- Lines with a row of a key are the lines in front of the last such row, that row, and the lines
after it. -/
theorem exists_eq_append_row {key : Text} {lines : List Text} (h : lines.any (isRowOf key)) :
    ∃ old, isRowOf key old ∧ lines = linesBeforeRow key lines ++ old :: linesAfterRow key lines ∧
      ∀ l ∈ linesAfterRow key lines, isRowOf key l = false := by
  rw [linesBeforeRow, linesAfterRow, if_pos h, if_pos h]
  let front := lines.rdropWhile (!isRowOf key ·)
  let after := lines.rtakeWhile (!isRowOf key ·)
  have hsplit : front ++ after = lines := List.rdropWhile_append_rtakeWhile
  have hfront : front ≠ [] := by
    intro hnil
    obtain ⟨l, hl, hrow⟩ := List.any_eq_true.1 h
    have hnone := List.rdropWhile_eq_nil_iff.1 hnil l hl
    simp [hrow] at hnone
  refine ⟨front.getLast hfront, ?_, ?_, fun l hl => ?_⟩
  · simpa using List.rdropWhile_last_not (!isRowOf key ·) lines hfront
  · show lines = front.dropLast ++ front.getLast hfront :: after
    rw [← List.singleton_append, ← List.append_assoc, List.dropLast_append_getLast, hsplit]
  · simpa using List.mem_rtakeWhile_imp hl

/-- **Setting a row** puts it where the last row of its key was, or at the end. -/
theorem setRow_eq (key value : Text) (lines : List Text) :
    setRow key value lines =
      linesBeforeRow key lines ++ rowLine key value :: linesAfterRow key lines := by
  by_cases hany : lines.any (isRowOf key)
  · obtain ⟨old, hold, hlines, hafter⟩ := exists_eq_append_row hany
    have hreplaced : replaceLast? (isRowOf key) (rowLine key value) lines =
        some (linesBeforeRow key lines ++ rowLine key value :: linesAfterRow key lines) := by
      conv_lhs => rw [hlines]
      exact replaceLast?_append_cons hold hafter
    rw [setRow, hreplaced]
    rfl
  · rw [setRow, linesBeforeRow, linesAfterRow, if_neg hany, if_neg hany, replaceLast?_eq_none]
    · rfl
    · intro l hl
      rw [Bool.eq_false_iff]
      exact fun hrow => hany (List.any_eq_true.2 ⟨l, hl, hrow⟩)

/-- The lines `after` are the lines `before` with one row set: either the line of the row takes the
place of a row with the same key, or it comes last. All other lines stay where they are. -/
def OneRowSet (key value : Text) (before after : List Text) : Prop :=
  after = before ++ [rowLine key value] ∨
    ∃ front old rest, isRowOf key old ∧ before = front ++ old :: rest ∧
      after = front ++ rowLine key value :: rest

theorem oneRowSet_setRow (key value : Text) (lines : List Text) :
    OneRowSet key value lines (setRow key value lines) := by
  by_cases hany : lines.any (isRowOf key)
  · obtain ⟨old, hold, hlines, -⟩ := exists_eq_append_row hany
    exact .inr ⟨_, old, _, hold, hlines, setRow_eq key value lines⟩
  · refine .inl ?_
    rw [setRow_eq, linesBeforeRow, linesAfterRow, if_neg hany, if_neg hany]

theorem linesBeforeRow_subset (key : Text) (lines : List Text) :
    linesBeforeRow key lines ⊆ lines := by
  rw [linesBeforeRow]
  split
  · exact List.Subset.trans (List.dropLast_subset _) (List.rdropWhile_prefix _ lines).subset
  · exact List.Subset.refl lines

theorem linesAfterRow_subset (key : Text) (lines : List Text) :
    linesAfterRow key lines ⊆ lines := by
  rw [linesAfterRow]
  split
  · exact (List.rtakeWhile_suffix _ lines).subset
  · exact List.nil_subset lines

/-- Setting a row brings in no line but the row. -/
theorem mem_setRow {key value line : Text} {lines : List Text}
    (h : line ∈ setRow key value lines) : line = rowLine key value ∨ line ∈ lines := by
  rw [setRow_eq, List.mem_append, List.mem_cons] at h
  rcases h with h | h | h
  · exact .inr (linesBeforeRow_subset key lines h)
  · exact .inl h
  · exact .inr (linesAfterRow_subset key lines h)

/-! ## Reading a row that was set -/

/-- A key that is read back from the row that it is written in. -/
structure PlainKey (key : Text) : Prop where
  nonempty : key ≠ []
  trimmed : Text.Trimmed key
  noEquals : '=' ∉ key
  noMark : key.head?.any (rawMarks.contains ·) = false

/-- A row reads back, but for the blanks and the quotes around its value. -/
theorem row?_rowLine {key : Text} (h : PlainKey key) (value : Text) :
    row? (rowLine key value) = some (key, unquote (Text.trim value)) := by
  have hline : rowLine key value = (key ++ [' ']) ++ '=' :: ' ' :: value := by simp [rowLine]
  have hmark : (rowLine key value).head?.any (rawMarks.contains ·) = false := by
    rw [hline, List.append_assoc, List.head?_append_of_ne_nil _ h.nonempty]
    exact h.noMark
  have hcut : Text.cut? '=' (rowLine key value) = some (key ++ [' '], ' ' :: value) :=
    Text.cut?_eq_some_iff.2 ⟨hline, by simp [h.noEquals]⟩
  have hkey : Text.trim (key ++ [' ']) = key := h.trimmed.trim_concat h.nonempty (by decide)
  have hvalue : Text.trim (' ' :: value) = Text.trim value := Text.trim_cons (by decide) value
  rw [row?, hmark, hcut]
  simp [hkey, hvalue, h.nonempty]

/-- Quotes are taken off only where a text starts with one. -/
theorem unquote_of_head {t : Text} (h : t.head? ≠ some '"') : unquote t = t := by
  cases t with
  | nil => rfl
  | cons c rest =>
    have hc : c ≠ '"' := fun hc => h (congrArg some hc)
    simp [unquote, Text.stripStart?, hc]

namespace Store

/-- The rows of a section in which one was set: it stands where the last row of its key was. -/
theorem rows_set_self (store : Store) (name : Text) {key : Text} (h : PlainKey key) (value : Text) :
    (store.set name key value).rows name =
      (linesBeforeRow key (store.rawLines name)).filterMap row? ++
        (key, unquote (Text.trim value)) ::
          (linesAfterRow key (store.rawLines name)).filterMap row? := by
  rw [rows, set, rawLines_edit_self store _ rfl, setRow_eq, List.filterMap_append,
    List.filterMap_cons, row?_rowLine h]

/-- A plain line for a row keeps the store well-formed. -/
theorem WellFormed.set {store : Store} (h : store.WellFormed) {name key value : Text}
    (hname : PlainName name) (hrow : PlainLine (rowLine key value)) :
    (store.set name key value).WellFormed := by
  refine h.edit hname fun lines hlines line hline => ?_
  rcases mem_setRow hline with rfl | hold
  · exact hrow
  · exact hlines line hold

end Store

end FramePatch.Ini
