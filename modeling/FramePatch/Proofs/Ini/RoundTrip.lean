import FramePatch.Proofs.Ini.WellFormed

/-!
# Reading what was printed

A store reads back from its text exactly if it is well-formed. One direction is that reading gives
well-formed stores only; the other, `parse_print`, follows the reader through its three stages:

- `significantLines_print`: the lines that count are the headers and lines that were printed;
- `blocks_printedLines`: they fall into one block for each section;
- `foldl_addBlock_of_distinct`: blocks with distinct names are added one after another.
-/

namespace FramePatch.Ini

/-! ## Lines -/

/-- A newline separates the lines before it from those after it. -/
theorem significantLines_append_newline (a b : Text) :
    significantLines (a ++ '\n' :: b) = significantLines a ++ significantLines b := by
  rw [significantLines, Text.pieces_append_sep, List.map_append, List.filter_append]
  rfl

/-- A clean line is one line that counts, and stays as it is. -/
theorem significantLines_of_cleanLine {line : Text} (h : CleanLine line) :
    significantLines line = [line] := by
  rw [significantLines, Text.pieces_of_not_mem h.oneLine, List.map_singleton, h.trimmed.trim_eq]
  simp [h.nonempty]

/-- Clean lines, each ended by a newline, are the lines that count. -/
theorem significantLines_flatMap {lines : List Text} (h : ∀ line ∈ lines, CleanLine line)
    (rest : Text) :
    significantLines ((lines.flatMap fun line => line ++ ['\n']) ++ rest) =
      lines ++ significantLines rest := by
  induction lines with
  | nil => rfl
  | cons line lines ih =>
    have hline : CleanLine line := h line List.mem_cons_self
    rw [List.flatMap_cons, List.append_assoc, List.append_assoc, List.singleton_append,
      significantLines_append_newline, significantLines_of_cleanLine hline,
      ih fun l hl => h l (List.mem_cons_of_mem line hl)]
    rfl

/-! ## Sections -/

/-- The header line of a section name. -/
def headerLine (name : Text) : Text := '[' :: name ++ [']']

/-- The lines that a section is printed as. -/
def Section.printedLines (s : Section) : List Text := headerLine s.name :: s.lines

theorem cleanLine_headerLine {name : Text} (h : PlainName name) : CleanLine (headerLine name) := by
  refine ⟨List.cons_ne_nil _ _, .of_ends (by decide) (by decide), ?_⟩
  simp [headerLine, h.oneLine]

/-- A header line announces the name it was made for. -/
theorem headerName?_headerLine {name : Text} (h : PlainName name) :
    headerName? (headerLine name) = some name := by
  have hstart : Text.stripStart? '[' (headerLine name) = some (name ++ [']']) :=
    Text.stripStart?_eq_some_iff.2 rfl
  have hcut : Text.cut? ']' (name ++ [']']) = some (name, []) :=
    Text.cut?_eq_some_iff.2 ⟨rfl, h.noBracket⟩
  rw [headerName?, hstart, Option.bind_some, hcut, Option.map_some]
  exact congrArg some h.trimmed.trim_eq

/-- A section of a well-formed store is printed as clean lines. -/
theorem cleanLine_of_mem_printedLines {store : Store} (h : store.WellFormed) {s : Section}
    (hs : s ∈ store.sections) : ∀ line ∈ s.printedLines, CleanLine line := by
  intro line hline
  rcases List.mem_cons.1 hline with rfl | hline
  · exact cleanLine_headerLine (h.names s hs)
  · exact (h.lines s hs line hline).toCleanLine

/-- The lines that count in the text of one section. -/
theorem significantLines_sectionPrint {s : Section}
    (h : ∀ line ∈ s.printedLines, CleanLine line) : significantLines s.print = s.printedLines := by
  have hprint : s.print = s.printedLines.flatMap (fun line => line ++ ['\n']) ++ [] :=
    (List.append_nil _).symm
  rw [hprint, significantLines_flatMap h]
  exact List.append_nil _

/-- The lines that count in the text of some sections are those that were printed. The empty lines
between sections do not count. -/
theorem significantLines_join {ss : List Section}
    (h : ∀ s ∈ ss, ∀ line ∈ s.printedLines, CleanLine line) :
    significantLines (Text.join '\n' (ss.map Section.print)) =
      ss.flatMap Section.printedLines := by
  induction ss with
  | nil => rfl
  | cons s rest ih =>
    have hs := significantLines_sectionPrint (h s List.mem_cons_self)
    have hrest := ih fun t ht => h t (List.mem_cons_of_mem s ht)
    cases rest with
    | nil =>
      show significantLines s.print = s.printedLines ++ []
      rw [hs, List.append_nil]
    | cons t rest =>
      show significantLines (s.print ++ '\n' :: Text.join '\n' ((t :: rest).map Section.print)) = _
      rw [significantLines_append_newline, hs, hrest]
      rfl

/-! ## Blocks -/

/-- Plain lines stay before the first header of what follows them. -/
theorem blocks_append_of_plain {lines : List Text} (h : ∀ line ∈ lines, PlainLine line)
    (rest : List Text) :
    blocks (lines ++ rest) = (lines ++ (blocks rest).1, (blocks rest).2) := by
  induction lines with
  | nil => rfl
  | cons line lines ih =>
    have hline : headerName? line = none :=
      headerName?_eq_none_iff.2 (h line List.mem_cons_self).noHeader
    rw [List.cons_append, blocks, ih fun l hl => h l (List.mem_cons_of_mem line hl)]
    simp [hline]

/-- The printed lines of plain sections fall into these sections. -/
theorem blocks_printedLines {ss : List Section} (h : ∀ s ∈ ss, PlainBlock s) :
    blocks (ss.flatMap Section.printedLines) = ([], ss) := by
  induction ss with
  | nil => rfl
  | cons s rest ih =>
    have hs : PlainBlock s := h s List.mem_cons_self
    have hrest := ih fun t ht => h t (List.mem_cons_of_mem s ht)
    -- the rest starts with a header, so it has no loose lines to add to this section
    have hlines := blocks_append_of_plain hs.lines (rest.flatMap Section.printedLines)
    rw [hrest, List.append_nil] at hlines
    rw [List.flatMap_cons, Section.printedLines, List.cons_append, blocks, hlines]
    simp [headerName?_headerLine hs.name]

/-! ## Stores -/

namespace Store

/-- A block whose name is new becomes the last section. -/
theorem addBlock_of_new {store : Store} {block : Section}
    (h : Text.fold block.name ∉ store.names.map Text.fold) :
    store.addBlock block = ⟨store.sections ++ [block]⟩ := by
  obtain ⟨ss⟩ := store
  rw [addBlock, edit, mk.injEq]
  induction ss with
  | nil => rfl
  | cons s rest ih =>
    simp only [names, List.map_cons, List.mem_cons, not_or] at h
    have hs : s.isNamed block.name = false := by
      simpa [Section.isNamed, Text.sameFolded] using Ne.symm h.1
    have hrest := ih h.2
    simp only [editSection, hs, Bool.false_eq_true, if_false, List.cons_append, hrest]

/-- Blocks with distinct new names become sections in their order. -/
theorem foldl_addBlock_of_distinct {store : Store} {bs : List Section}
    (h : ((store.sections ++ bs).map fun s => Text.fold s.name).Nodup) :
    bs.foldl addBlock store = ⟨store.sections ++ bs⟩ := by
  induction bs generalizing store with
  | nil => simp
  | cons b rest ih =>
    have hnew : Text.fold b.name ∉ store.names.map Text.fold := by
      rw [List.map_append, List.nodup_append] at h
      intro hm
      rw [names, List.map_map] at hm
      exact h.2.2 _ hm _ List.mem_cons_self rfl
    rw [List.foldl_cons, addBlock_of_new hnew, ih (by simpa using h)]
    simp

theorem WellFormed.plainBlock {store : Store} (h : store.WellFormed) :
    ∀ s ∈ store.sections, PlainBlock s :=
  fun s hs => ⟨h.names s hs, h.lines s hs⟩

/-- The lines that count in the text of a well-formed store. -/
theorem significantLines_print {store : Store} (h : store.WellFormed) :
    significantLines store.print = store.sections.flatMap Section.printedLines :=
  significantLines_join fun _ hs => cleanLine_of_mem_printedLines h hs

/-- A well-formed store reads back from its text. -/
theorem parse_print {store : Store} (h : store.WellFormed) : parse store.print = store := by
  have hdistinct : ((empty.sections ++ store.sections).map fun s => Text.fold s.name).Nodup := by
    have hd := h.distinct
    rw [names, List.map_map] at hd
    exact hd
  rw [parse, significantLines_print h, blocks_printedLines h.plainBlock,
    foldl_addBlock_of_distinct hdistinct]
  rfl

/-- **Texts and well-formed stores agree**: every text is read as a well-formed store, and the
stores that read back from their own text are the well-formed ones. So printing what was read and
reading it again changes nothing. -/
theorem parse_print_eq_self_iff_wellFormed :
    (∀ text, (parse text).WellFormed) ∧
      (∀ store : Store, parse store.print = store ↔ store.WellFormed) ∧
      ∀ text, parse (parse text).print = parse text := by
  refine ⟨wellFormed_parse, fun store => ⟨fun h => ?_, parse_print⟩, fun text => ?_⟩
  · rw [← h]
    exact wellFormed_parse store.print
  · exact parse_print (wellFormed_parse text)

/-- The empty line after a header counts for nothing, and a bracket alone makes no header. -/
example : parse "[A]\n\n [ x\n[b] = 1\n]".toList =
    ⟨[⟨['A'], [['[', ' ', 'x']]⟩, ⟨['b'], [[']']]⟩]⟩ := by decide

end Store

end FramePatch.Ini
