import FramePatch.Proofs.Ini.Locality
import FramePatch.Proofs.Ini.LooseEnds

/-!
# Values of rows

The value of a key is that of the last row with this key, in any case (`lastValue?`). A row that is
set takes the place of just that row (`rows_set_cases`), so it is the one that is found afterwards,
whatever other rows of its key there are, and every other key has the value it had. The value is
found without the blanks and the quotes around it.

All of this is still so when the store has been printed and read again (`get?_set`), provided that
the line of the row is one line and no header.
-/

namespace FramePatch.Ini

/-! ## Quotes -/

/-- The text `u` is `t` without a pair of double quotes around it, or `t` itself if there is no such
pair. -/
def Unquotes (t u : Text) : Prop :=
  t = '"' :: u ++ ['"'] ∨ t = u ∧ ∀ inner, t ≠ '"' :: inner ++ ['"']

theorem unquotes_unquote (t : Text) : Unquotes t (unquote t) := by
  have hquoted : ∀ u, (Text.stripStart? '"' t).bind (Text.stripEnd? '"') = some u ↔
      t = '"' :: u ++ ['"'] := by
    intro u
    simp only [Option.bind_eq_some_iff, Text.stripStart?_eq_some_iff, Text.stripEnd?_eq_some_iff]
    constructor
    · rintro ⟨rest, rfl, rfl⟩
      rfl
    · rintro rfl
      exact ⟨_, rfl, rfl⟩
  rw [unquote]
  cases h : (Text.stripStart? '"' t).bind (Text.stripEnd? '"') with
  | some u => exact .inl ((hquoted u).1 h)
  | none =>
    refine .inr ⟨rfl, fun inner hinner => ?_⟩
    exact Option.some_ne_none inner ((hquoted inner).2 hinner ▸ h)

/-! ## The last row of a key -/

/-- The value of the last of some rows with the given key. -/
def lastValue? (key : Text) (rows : List (Text × Text)) : Option Text :=
  (rows.findRev? fun r => Text.sameFolded r.1 key).map (·.2)

theorem lastValue?_append (key : Text) (rows more : List (Text × Text)) :
    lastValue? key (rows ++ more) = (lastValue? key more).or (lastValue? key rows) := by
  simp only [lastValue?, List.findRev?_eq_find?_reverse, List.reverse_append, List.find?_append,
    Option.map_or]

theorem lastValue?_singleton (key : Text) (r : Text × Text) :
    lastValue? key [r] = if Text.fold r.1 = Text.fold key then some r.2 else none := by
  by_cases h : Text.fold r.1 = Text.fold key <;>
    simp [lastValue?, List.findRev?_eq_find?_reverse, Text.sameFolded, h]

theorem lastValue?_eq_none {key : Text} {rows : List (Text × Text)}
    (h : ∀ r ∈ rows, Text.fold r.1 ≠ Text.fold key) : lastValue? key rows = none := by
  have hnone : rows.reverse.find? (fun r => Text.sameFolded r.1 key) = none := by
    rw [List.find?_eq_none]
    intro r hr hsame
    exact h r (List.mem_reverse.1 hr) (Text.sameFolded_iff.1 hsame)
  rw [lastValue?, List.findRev?_eq_find?_reverse, hnone]
  rfl

/-- The row in the middle has the last word, if its key does not come up behind it. -/
theorem lastValue?_append_cons {key : Text} {front behind : List (Text × Text)} {r : Text × Text}
    (hr : Text.fold r.1 = Text.fold key) (h : ∀ r ∈ behind, Text.fold r.1 ≠ Text.fold key) :
    lastValue? key (front ++ r :: behind) = some r.2 := by
  rw [← List.singleton_append, lastValue?_append, lastValue?_append, lastValue?_eq_none h,
    lastValue?_singleton, if_pos hr]
  rfl

/-- A row of another key does not matter. -/
theorem lastValue?_append_cons_other {key : Text} {front behind : List (Text × Text)}
    {r : Text × Text} (hr : Text.fold r.1 ≠ Text.fold key) :
    lastValue? key (front ++ r :: behind) = lastValue? key (front ++ behind) := by
  rw [← List.singleton_append, lastValue?_append, lastValue?_append, lastValue?_append,
    lastValue?_singleton, if_neg hr, Option.or_none]

/-- Lines without rows of the key have rows of other keys only. -/
theorem fold_ne_of_mem_rows {key : Text} {lines : List Text}
    (h : ∀ l ∈ lines, isRowOf key l = false) :
    ∀ r ∈ lines.filterMap row?, Text.fold r.1 ≠ Text.fold key := by
  intro r hr hkey
  obtain ⟨l, hl, hrow⟩ := List.mem_filterMap.1 hr
  exact Bool.eq_false_iff.1 (h l hl) (isRowOf_iff.2 ⟨r, hrow, hkey⟩)

namespace Store

/-- A section is asked for its rows in any case. -/
theorem rows_congr (store : Store) {a b : Text} (h : Text.fold a = Text.fold b) :
    store.rows a = store.rows b := by
  have hnamed : (Section.isNamed a) = Section.isNamed b := funext fun s => isNamed_congr h s
  rw [rows, rawLines, find?, hnamed]
  rfl

/-- **The rows after one was set**: it comes last if there was none of its key, and otherwise takes
the place of the last one. -/
theorem rows_set_cases (store : Store) (name : Text) {key : Text} (h : PlainKey key)
    (value : Text) :
    let new := (key, unquote (Text.trim value))
    ((∀ r ∈ store.rows name, Text.fold r.1 ≠ Text.fold key) ∧
        (store.set name key value).rows name = store.rows name ++ [new]) ∨
      ∃ front old behind, store.rows name = front ++ old :: behind ∧
        Text.fold old.1 = Text.fold key ∧
        (∀ r ∈ behind, Text.fold r.1 ≠ Text.fold key) ∧
        (store.set name key value).rows name = front ++ new :: behind := by
  intro new
  have hset := store.rows_set_self name h value
  by_cases hany : (store.rawLines name).any (isRowOf key)
  · right
    obtain ⟨line, hline, hlines, hafter⟩ := exists_eq_append_row hany
    obtain ⟨old, hold, hkey⟩ := isRowOf_iff.1 hline
    refine ⟨_, old, _, ?_, hkey, fold_ne_of_mem_rows hafter, hset⟩
    rw [rows]
    conv_lhs => rw [hlines]
    rw [List.filterMap_append, List.filterMap_cons_some hold]
  · left
    refine ⟨fold_ne_of_mem_rows fun l hl => ?_, ?_⟩
    · rw [Bool.eq_false_iff]
      exact fun hrow => hany (List.any_eq_true.2 ⟨l, hl, hrow⟩)
    · rw [hset, linesBeforeRow, linesAfterRow, if_neg hany, if_neg hany]
      rfl

variable {name asked key other : Text}

/-- The value that was set is found, in whatever case it is asked for. -/
theorem get?_set_self (store : Store) (h : PlainKey key) (value : Text)
    (hname : Text.fold asked = Text.fold name) (hkey : Text.fold other = Text.fold key) :
    (store.set name key value).get? asked other = some (unquote (Text.trim value)) := by
  show lastValue? other ((store.set name key value).rows asked) = _
  rw [rows_congr _ hname]
  rcases store.rows_set_cases name h value with
    ⟨-, hset⟩ | ⟨front, old, behind, -, -, hfree, hset⟩
  · rw [hset]
    exact lastValue?_append_cons hkey.symm (List.forall_mem_nil _)
  · rw [hset]
    exact lastValue?_append_cons hkey.symm fun r hr => hkey ▸ hfree r hr

/-- Every other value is what it was. -/
theorem get?_set_other (store : Store) (h : PlainKey key) (value : Text)
    (hne : ¬(Text.fold asked = Text.fold name ∧ Text.fold other = Text.fold key)) :
    (store.set name key value).get? asked other = store.get? asked other := by
  by_cases hname : Text.fold asked = Text.fold name
  · have hkey : Text.fold key ≠ Text.fold other := fun hkey => hne ⟨hname, hkey.symm⟩
    show lastValue? other ((store.set name key value).rows asked) =
      lastValue? other (store.rows asked)
    rw [rows_congr _ hname, rows_congr _ hname]
    rcases store.rows_set_cases name h value with
      ⟨-, hset⟩ | ⟨front, old, behind, hrows, hold, -, hset⟩
    · rw [hset, lastValue?_append_cons_other hkey, List.append_nil]
    · have hold' : Text.fold old.1 ≠ Text.fold other := hold ▸ hkey
      rw [hset, hrows, lastValue?_append_cons_other hkey, lastValue?_append_cons_other hold']
  · exact (sameAnswers_edit store _ hname).get? other

/-- A row comes in addition exactly if there was none of its key. -/
theorem length_rows_set (store : Store) (h : PlainKey key) (value : Text) :
    ((store.set name key value).rows name).length =
      (store.rows name).length +
        if ∃ r ∈ store.rows name, Text.fold r.1 = Text.fold key then 0 else 1 := by
  rcases store.rows_set_cases name h value with
    ⟨hfree, hset⟩ | ⟨front, old, behind, hrows, hold, -, hset⟩
  · rw [if_neg fun ⟨r, hr, hkey⟩ => hfree r hr hkey, hset, List.length_append]
    rfl
  · have hmem : old ∈ store.rows name := hrows ▸ List.mem_append_right _ List.mem_cons_self
    rw [if_pos ⟨old, hmem, hold⟩, hset, hrows]
    simp

/-- A row that is one line and no header leaves a well-formed store, but for blanks at its end. -/
theorem WellFormed.loose_set {store : Store} (h : store.WellFormed) (hname : PlainName name)
    {value : Text} (hrow : LooseLine (rowLine key value)) : (store.set name key value).Loose := by
  refine ⟨distinct_edit name _ h.distinct, ?_, ?_⟩
  · exact forall_mem_sections_edit h.names h.names hname
  · have hold : ∀ lines : List Text, (∀ line ∈ lines, PlainLine line) →
        ∀ line ∈ setRow key value lines, LooseLine line := by
      intro lines hlines line hline
      rcases mem_setRow hline with rfl | hline
      · exact hrow
      · exact (hlines line hline).loose
    refine forall_mem_sections_edit (fun s hs line hline => (h.lines s hs line hline).loose)
      (fun s hs => hold s.lines (h.lines s hs)) (hold [] (List.forall_mem_nil _))

/-- **Setting a row and asking for values.** After a row with a plain key was set, its key has its
value in any case of section and key, without the blanks and one pair of quotes around it. All other
values are what they were, and there is a row more exactly if the key is new. If the store was read
from a text, the section has a plain name, and the row is one line that does not start with a
bracket, then the same values are read from the text of the store. -/
theorem get?_set (store : Store) (h : PlainKey key) (value : Text) :
    let after := store.set name key value
    (∃ v, Unquotes (Text.trim value) v ∧
        ∀ asked other, Text.fold asked = Text.fold name → Text.fold other = Text.fold key →
          after.get? asked other = some v) ∧
      (∀ asked other, ¬(Text.fold asked = Text.fold name ∧ Text.fold other = Text.fold key) →
        after.get? asked other = store.get? asked other) ∧
      (after.rows name).length = (store.rows name).length +
        (if ∃ r ∈ store.rows name, Text.fold r.1 = Text.fold key then 0 else 1) ∧
      ∀ text, store = parse text → PlainName name → '\n' ∉ key → '\n' ∉ value →
        key.head? ≠ some '[' →
        ∀ asked other, (parse after.print).get? asked other = after.get? asked other := by
  intro after
  refine ⟨⟨_, unquotes_unquote _, fun asked other => store.get?_set_self h value⟩,
    fun asked other => store.get?_set_other h value, store.length_rows_set h value, ?_⟩
  rintro text rfl hname hkey hvalue hbracket asked other
  have hloose : after.Loose :=
    (wellFormed_parse text).loose_set hname (looseLine_rowLine h hbracket hkey hvalue)
  rw [get?, hloose.rows_parse_print, get?]

/-- Two rows of one key, and a section behind them. -/
def doubled : Text := "[S]\nK = 1\nk = \"2\"\nl = 3\n[t]".toList

/-- The last one of them is set, to a value with blanks inside and outside of its quotes. The line
of the row is not written as it is in memory, but it means the same. -/
theorem get?_set_doubled :
    let store := parse doubled
    let after := store.set ['s'] ['k'] [' ', '"', ' ', '5', '"', '\t']
    PlainKey ['k'] ∧ after.rows ['S'] = [(['K'], ['1']), (['k'], [' ', '5']), (['l'], ['3'])] ∧
      after.get? ['S'] ['K'] = some [' ', '5'] ∧ after.get? ['S'] ['L'] = store.get? ['S'] ['L'] ∧
      parse after.print ≠ after ∧
      (parse after.print).get? ['S'] ['K'] = after.get? ['S'] ['K'] := by
  intro store after
  have hkey : PlainKey ['k'] := ⟨by decide, ⟨by decide, by decide⟩, by decide, by decide⟩
  obtain ⟨-, hother, -, hprinted⟩ :=
    @get?_set ['s'] ['k'] store hkey [' ', '"', ' ', '5', '"', '\t']
  refine ⟨hkey, by decide, by decide, hother _ _ (by decide), by decide, ?_⟩
  exact hprinted doubled rfl ⟨⟨by decide, by decide⟩, by decide, by decide⟩ (by decide) (by decide)
    (by decide) _ _

end Store

end FramePatch.Ini
