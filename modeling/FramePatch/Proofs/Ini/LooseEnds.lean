import FramePatch.Proofs.Ini.RoundTrip
import FramePatch.Proofs.Ini.SetRow

/-!
# Lines with blanks at the end

The line of a row ends as its value does, so it may have blanks at its right end, which are lost
when a store is printed and read again. A store with such lines is not well-formed, and comes back
with its lines trimmed (`parse_print_trimmed`). No row can tell, for its value is trimmed anyway
(`row?_append_blank`): all rows are read as before (`rows_parse_print`).
-/

namespace FramePatch.Ini

/-! ## Lines -/

/-- A line that is read back plain, but for blanks at its right end. -/
structure LooseLine (line : Text) : Prop where
  oneLine : '\n' ∉ line
  head : line.head?.all (!Text.isBlank ·)
  plain : PlainLine (Text.trim line)

/-- A plain line has nothing to lose. -/
theorem PlainLine.loose {line : Text} (h : PlainLine line) : LooseLine line :=
  ⟨h.oneLine, h.trimmed.head, h.trimmed.trim_eq.symm ▸ h⟩

/-- Blanks at the end are no part of a row. -/
theorem row?_append_blank {pad : Text} (h : ∀ c ∈ pad, Text.isBlank c) (line : Text) :
    row? (line ++ pad) = row? line := by
  by_cases heq : '=' ∈ line
  · obtain ⟨key, value, rfl, hkey⟩ := List.eq_append_cons_of_mem heq
    have hcut : Text.cut? '=' (key ++ '=' :: value) = some (key, value) :=
      Text.cut?_eq_some_iff.2 ⟨rfl, hkey⟩
    have hcut' : Text.cut? '=' (key ++ '=' :: value ++ pad) = some (key, value ++ pad) :=
      Text.cut?_eq_some_iff.2 ⟨by simp, hkey⟩
    have hhead : (key ++ '=' :: value ++ pad).head? = (key ++ '=' :: value).head? :=
      List.head?_append_of_ne_nil _ (by simp)
    have hvalue : Text.trim (value ++ pad) = Text.trim value :=
      Text.trim_pad (List.forall_mem_nil _) h value
    rw [row?, row?, hhead, hcut, hcut']
    simp only [Option.bind_some, hvalue]
  · -- without an `=` there is no row, and blanks do not bring one
    have hpad : '=' ∉ pad := fun hmem => absurd (h '=' hmem) (by decide)
    have hnone : Text.cut? '=' line = none := Text.cut?_eq_none_iff.2 heq
    have hnone' : Text.cut? '=' (line ++ pad) = none :=
      Text.cut?_eq_none_iff.2 fun hmem => (List.mem_append.1 hmem).elim heq hpad
    rw [row?, row?, hnone, hnone']
    simp

/-- The row of a line stays when the line is trimmed, if no blanks are in front. -/
theorem LooseLine.row?_trim {line : Text} (h : LooseLine line) :
    row? (Text.trim line) = row? line := by
  obtain ⟨pad, hline, hpad⟩ := Text.exists_eq_trimRight_append line
  rw [Text.trim, Text.trimLeft_of_head h.head]
  conv_rhs => rw [hline]
  exact (row?_append_blank hpad _).symm

/-- The line of a row that is on one line and does not look like a header. -/
theorem looseLine_rowLine {key value : Text} (h : PlainKey key) (hbracket : key.head? ≠ some '[')
    (hkey : '\n' ∉ key) (hvalue : '\n' ∉ value) : LooseLine (rowLine key value) := by
  have hstart : (rowLine key value).head? = key.head? := by
    rw [rowLine, List.append_assoc, List.head?_append_of_ne_nil _ h.nonempty]
  have hhead : (rowLine key value).head?.all (!Text.isBlank ·) := by
    rw [hstart]
    exact h.trimmed.head
  have honeLine : '\n' ∉ rowLine key value := by simp [rowLine, hkey, hvalue]
  have htrim : Text.trim (rowLine key value) = Text.trimRight (rowLine key value) := by
    rw [Text.trim, Text.trimLeft_of_head hhead]
  -- the `=` is no blank, so something is left, and it starts as the key does
  have hequals : '=' ∈ rowLine key value := by simp [rowLine]
  have hne : Text.trimRight (rowLine key value) ≠ [] :=
    Text.trimRight_ne_nil hequals (by decide)
  have hstays : (Text.trimRight (rowLine key value)).head? = key.head? :=
    (Text.head?_trimRight hne).trans hstart
  refine ⟨honeLine, hhead, ⟨?_, Text.trimmed_trim _, ?_⟩, ?_⟩
  · rwa [htrim]
  · exact fun hmem => honeLine (Text.mem_of_mem_trim hmem)
  · intro hshape
    rw [HeaderShaped, htrim, hstays] at hshape
    exact hbracket hshape.1

/-! ## Printing -/

theorem significantLines_trim {line : Text} (h : '\n' ∉ line) :
    significantLines (Text.trim line) = significantLines line := by
  have htrim : '\n' ∉ Text.trim line := fun hmem => h (Text.mem_of_mem_trim hmem)
  rw [significantLines, significantLines, Text.pieces_of_not_mem h, Text.pieces_of_not_mem htrim,
    List.map_singleton, List.map_singleton, (Text.trimmed_trim line).trim_eq]

/-- Of printed lines, the first one is read by itself. -/
theorem significantLines_flatMap_cons (line : Text) (lines : List Text) (rest : Text) :
    significantLines (((line :: lines).flatMap fun line => line ++ ['\n']) ++ rest) =
      significantLines line ++
        significantLines ((lines.flatMap fun line => line ++ ['\n']) ++ rest) := by
  rw [← significantLines_append_newline]
  simp

/-- Of printed lines, the same ones count if they are trimmed. -/
theorem significantLines_flatMap_trim {lines : List Text} (h : ∀ line ∈ lines, '\n' ∉ line)
    (rest : Text) :
    significantLines (((lines.map Text.trim).flatMap fun line => line ++ ['\n']) ++ rest) =
      significantLines ((lines.flatMap fun line => line ++ ['\n']) ++ rest) := by
  induction lines with
  | nil => rfl
  | cons line lines ih =>
    rw [List.map_cons, significantLines_flatMap_cons, significantLines_flatMap_cons,
      significantLines_trim (h line List.mem_cons_self),
      ih fun l hl => h l (List.mem_cons_of_mem line hl)]

/-- The section with its lines trimmed. -/
def Section.trimmed (s : Section) : Section := ⟨s.name, s.lines.map Text.trim⟩

/-- The same lines count in the text of a section with its lines trimmed. -/
theorem significantLines_print_trimmed {s : Section} (h : ∀ line ∈ s.lines, '\n' ∉ line)
    (rest : Text) :
    significantLines (s.trimmed.print ++ rest) = significantLines (s.print ++ rest) := by
  rw [Section.print, Section.print, significantLines_flatMap_cons, significantLines_flatMap_cons]
  exact congrArg _ (significantLines_flatMap_trim h rest)

namespace Store

/-- The store with its lines trimmed. -/
def trimmed (store : Store) : Store := ⟨store.sections.map Section.trimmed⟩

theorem names_trimmed (store : Store) : store.trimmed.names = store.names := by
  rw [names, trimmed, List.map_map]
  rfl

theorem rawLines_trimmed (store : Store) (name : Text) :
    store.trimmed.rawLines name = (store.rawLines name).map Text.trim := by
  obtain ⟨ss⟩ := store
  have hnamed : (Section.isNamed name) ∘ Section.trimmed = Section.isNamed name := rfl
  rw [rawLines, find?, trimmed, List.find?_map, rawLines, find?, hnamed]
  cases ss.find? (·.isNamed name) <;> rfl

theorem significantLines_join_trimmed {ss : List Section}
    (h : ∀ s ∈ ss, ∀ line ∈ s.lines, '\n' ∉ line) :
    significantLines (Text.join '\n' ((ss.map Section.trimmed).map Section.print)) =
      significantLines (Text.join '\n' (ss.map Section.print)) := by
  induction ss with
  | nil => rfl
  | cons s rest ih =>
    have hs := significantLines_print_trimmed (h s List.mem_cons_self)
    cases rest with
    | nil =>
      show significantLines s.trimmed.print = significantLines s.print
      rw [← List.append_nil s.trimmed.print, hs, List.append_nil]
    | cons t rest =>
      have hrest := ih fun u hu => h u (List.mem_cons_of_mem s hu)
      show significantLines (s.trimmed.print ++ '\n' :: Text.join '\n'
        (((t :: rest).map Section.trimmed).map Section.print)) =
          significantLines (s.print ++ '\n' :: Text.join '\n' ((t :: rest).map Section.print))
      rw [hs, significantLines_append_newline, significantLines_append_newline, hrest]

/-- A store that is well-formed but for blanks at the ends of its lines. -/
structure Loose (store : Store) : Prop where
  distinct : (store.names.map Text.fold).Nodup
  names : ∀ s ∈ store.sections, PlainName s.name
  lines : ∀ s ∈ store.sections, ∀ line ∈ s.lines, LooseLine line

theorem Loose.wellFormed_trimmed {store : Store} (h : store.Loose) : store.trimmed.WellFormed := by
  refine ⟨?_, fun s hs => ?_, fun s hs line hline => ?_⟩
  · rw [names_trimmed]
    exact h.distinct
  · obtain ⟨t, ht, rfl⟩ := List.mem_map.1 hs
    exact h.names t ht
  · obtain ⟨t, ht, rfl⟩ := List.mem_map.1 hs
    obtain ⟨old, hold, rfl⟩ := List.mem_map.1 hline
    exact (h.lines t ht old hold).plain

/-- **What is printed** comes back with its lines trimmed. -/
theorem Loose.parse_print_trimmed {store : Store} (h : store.Loose) :
    parse store.print = store.trimmed := by
  have honeLine : ∀ s ∈ store.sections, ∀ line ∈ s.lines, '\n' ∉ line :=
    fun s hs line hline => (h.lines s hs line hline).oneLine
  have hsame : significantLines store.trimmed.print = significantLines store.print :=
    significantLines_join_trimmed honeLine
  rw [← parse_print h.wellFormed_trimmed, parse, parse, hsame]

/-- All rows come back as they were. -/
theorem Loose.rows_parse_print {store : Store} (h : store.Loose) (name : Text) :
    (parse store.print).rows name = store.rows name := by
  have hlines : ∀ line ∈ store.rawLines name, LooseLine line := by
    intro line hline
    obtain ⟨s, hs, hmem⟩ := exists_of_mem_rawLines hline
    exact h.lines s hs line hmem
  rw [h.parse_print_trimmed, rows, rawLines_trimmed, List.filterMap_map, rows]
  exact List.filterMap_congr fun line hline => (hlines line hline).row?_trim

end Store

end FramePatch.Ini
