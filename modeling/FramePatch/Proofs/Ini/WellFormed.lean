import FramePatch.Ini.Format
import FramePatch.Proofs.Text.Trimmed

/-!
# Well-formed stores

Printing a store writes names and lines as they are, so only some stores can be read back. A
*well-formed* store has section names that differ by more than case, names that fit between
brackets on one line, and lines that a reader neither trims, nor skips, nor takes for a header.

- `WellFormed.edit`: an edit keeps a store well-formed, as long as what it puts in is plain.
- `wellFormed_parse`: every text is read as a well-formed store. A trimmed line of the text is
  either a header, whose name is plain, or plain itself (`plain_blocks`); the store is then built
  by edits from the empty one.
-/

namespace FramePatch.Ini

/-! ## Lines and names -/

/-- A line that starts with `[` and has a `]`, as headers do. -/
def HeaderShaped (line : Text) : Prop := line.head? = some '[' ∧ ']' ∈ line

/-- A line as reading leaves it: one line, trimmed and not empty. -/
structure CleanLine (line : Text) : Prop where
  nonempty : line ≠ []
  trimmed : Text.Trimmed line
  oneLine : '\n' ∉ line

/-- A clean line that is not taken for a header. -/
structure PlainLine (line : Text) : Prop extends CleanLine line where
  noHeader : ¬HeaderShaped line

/-- A section name that a header line can carry. -/
structure PlainName (name : Text) : Prop where
  trimmed : Text.Trimmed name
  noBracket : ']' ∉ name
  oneLine : '\n' ∉ name

/-- The lines that announce no name are those that have not the shape of a header. -/
theorem headerName?_eq_none_iff {line : Text} : headerName? line = none ↔ ¬HeaderShaped line := by
  cases line with
  | nil => simp [headerName?, HeaderShaped, Text.stripStart?]
  | cons c rest =>
    by_cases hc : c = '['
    · subst hc
      simp [headerName?, HeaderShaped, Text.stripStart?, Text.cut?_eq_none_iff]
    · simp [headerName?, HeaderShaped, Text.stripStart?, hc]

/-- A header on one line announces a plain name: it ends before the first `]` and is trimmed. -/
theorem plainName_of_headerName? {line name : Text} (h : headerName? line = some name)
    (hline : '\n' ∉ line) : PlainName name := by
  simp only [headerName?, Option.bind_eq_some_iff, Option.map_eq_some_iff, Prod.exists] at h
  obtain ⟨rest, hrest, before, after, hcut, rfl⟩ := h
  obtain ⟨rfl, hbracket⟩ := Text.cut?_eq_some_iff.1 hcut
  have hl := Text.stripStart?_eq_some_iff.1 hrest
  refine ⟨Text.trimmed_trim before, fun hm => hbracket (Text.mem_of_mem_trim hm), fun hm => ?_⟩
  apply hline
  rw [hl]
  exact List.mem_cons_of_mem _ (List.mem_append_left _ (Text.mem_of_mem_trim hm))

/-- What counts of a text is clean. -/
theorem cleanLine_of_mem_significantLines {text line : Text} (h : line ∈ significantLines text) :
    CleanLine line := by
  obtain ⟨hmem, hne⟩ := List.mem_filter.1 h
  obtain ⟨piece, hpiece, rfl⟩ := List.mem_map.1 hmem
  refine ⟨by simpa using hne, Text.trimmed_trim piece, fun hn => ?_⟩
  exact Text.not_mem_of_mem_pieces hpiece (Text.mem_of_mem_trim hn)

/-! ## Stores -/

namespace Store

/-- A store whose text says all there is to it. -/
structure WellFormed (store : Store) : Prop where
  distinct : (store.names.map Text.fold).Nodup
  names : ∀ s ∈ store.sections, PlainName s.name
  lines : ∀ s ∈ store.sections, ∀ line ∈ s.lines, PlainLine line

theorem wellFormed_empty : WellFormed empty :=
  ⟨List.nodup_nil, fun _ h => absurd h List.not_mem_nil, fun _ h => absurd h List.not_mem_nil⟩

/-- There is a section of a name exactly if the folded name is among the folded names. -/
theorem hasSection_iff {store : Store} {name : Text} :
    store.hasSection name ↔ Text.fold name ∈ store.names.map Text.fold := by
  simp only [hasSection, find?, List.find?_isSome, names, List.map_map, List.mem_map,
    Section.isNamed, Text.sameFolded_iff]
  rfl

/-- The raw lines of a section are lines of the store. -/
theorem exists_of_mem_rawLines {store : Store} {name line : Text}
    (h : line ∈ store.rawLines name) : ∃ s ∈ store.sections, line ∈ s.lines := by
  rw [rawLines] at h
  cases hfind : store.find? name with
  | none =>
    rw [hfind] at h
    exact absurd h List.not_mem_nil
  | some s =>
    rw [hfind] at h
    exact ⟨s, List.mem_of_find?_eq_some hfind, h⟩

/-- An edit makes no second section of a name. -/
theorem distinct_edit {store : Store} (name : Text) (f : List Text → List Text)
    (h : (store.names.map Text.fold).Nodup) :
    ((store.edit name f).names.map Text.fold).Nodup := by
  by_cases hs : store.hasSection name
  · rw [names_edit_of_mem f hs]
    exact h
  · -- a section is appended only where its folded name is new
    have hnew : Text.fold name ∉ store.names.map Text.fold := fun hm => hs (hasSection_iff.2 hm)
    rw [names_edit_of_not_mem f (by simpa using hs), List.map_append, List.nodup_append]
    refine ⟨h, by simp, fun a ha b hb hab => hnew ?_⟩
    rw [List.map_singleton, List.mem_singleton] at hb
    rw [← hb, ← hab]
    exact ha

/-- Every section after an edit is an old one, an old one with its lines edited, or the new one. -/
theorem forall_mem_sections_edit {P : Section → Prop} {store : Store} {name : Text}
    {f : List Text → List Text} (hold : ∀ s ∈ store.sections, P s)
    (hedited : ∀ s ∈ store.sections, P { s with lines := f s.lines }) (hnew : P ⟨name, f []⟩) :
    ∀ s ∈ (store.edit name f).sections, P s := by
  obtain ⟨ss⟩ := store
  simp only [edit] at hold hedited ⊢
  induction ss with
  | nil => simpa [editSection] using hnew
  | cons s rest ih =>
    have hrest := ih (fun x hx => hold x (List.mem_cons_of_mem s hx))
      (fun x hx => hedited x (List.mem_cons_of_mem s hx))
    rw [editSection]
    split
    · exact List.forall_mem_cons.2 ⟨hedited s List.mem_cons_self,
        fun x hx => hold x (List.mem_cons_of_mem s hx)⟩
    · exact List.forall_mem_cons.2 ⟨hold s List.mem_cons_self, hrest⟩

/-- An edit that puts in a plain name and keeps lines plain keeps the store well-formed. -/
theorem WellFormed.edit {store : Store} (h : store.WellFormed) {name : Text}
    (hname : PlainName name) {f : List Text → List Text}
    (hf : ∀ ls, (∀ line ∈ ls, PlainLine line) → ∀ line ∈ f ls, PlainLine line) :
    (store.edit name f).WellFormed := by
  refine ⟨distinct_edit name f h.distinct, ?_, ?_⟩
  · exact forall_mem_sections_edit h.names h.names hname
  · refine forall_mem_sections_edit h.lines (fun s hs => hf s.lines (h.lines s hs)) ?_
    exact hf [] fun _ hl => absurd hl List.not_mem_nil

/-- Plain lines under a plain name keep the store well-formed. -/
theorem WellFormed.setLines {store : Store} (h : store.WellFormed) {name : Text}
    (hname : PlainName name) {lines : List Text} (hlines : ∀ line ∈ lines, PlainLine line) :
    (store.setLines name lines).WellFormed :=
  h.edit hname fun _ _ => hlines

end Store

/-! ## Reading -/

/-- A block of plain lines under a plain name. -/
structure PlainBlock (block : Section) : Prop where
  name : PlainName block.name
  lines : ∀ line ∈ block.lines, PlainLine line

/-- Clean lines fall into plain blocks, after plain lines that belong to none. -/
theorem plain_blocks {lines : List Text} (h : ∀ line ∈ lines, CleanLine line) :
    (∀ line ∈ (blocks lines).1, PlainLine line) ∧ ∀ b ∈ (blocks lines).2, PlainBlock b := by
  induction lines with
  | nil => simp [blocks]
  | cons line rest ih =>
    have hline : CleanLine line := h line List.mem_cons_self
    obtain ⟨hloose, hblocks⟩ := ih fun l hl => h l (List.mem_cons_of_mem line hl)
    simp only [blocks]
    cases hn : headerName? line with
    | some name =>
      -- the loose lines of the rest become the lines of this block
      have hname : PlainName name := plainName_of_headerName? hn hline.oneLine
      exact ⟨fun _ hl => absurd hl List.not_mem_nil,
        List.forall_mem_cons.2 ⟨⟨hname, hloose⟩, hblocks⟩⟩
    | none =>
      have hplain : PlainLine line := ⟨hline, headerName?_eq_none_iff.1 hn⟩
      exact ⟨List.forall_mem_cons.2 ⟨hplain, hloose⟩, hblocks⟩

namespace Store

/-- Adding a plain block keeps a store well-formed. -/
theorem WellFormed.addBlock {store : Store} (h : store.WellFormed) {block : Section}
    (hb : PlainBlock block) : (store.addBlock block).WellFormed := by
  refine h.edit hb.name fun ls hls line hline => ?_
  rcases List.mem_append.1 hline with hl | hl
  · exact hls line hl
  · exact hb.lines line hl

/-- So does adding any number of them. -/
theorem WellFormed.foldl_addBlock {store : Store} (h : store.WellFormed) {bs : List Section}
    (hb : ∀ b ∈ bs, PlainBlock b) : (bs.foldl Store.addBlock store).WellFormed := by
  induction bs generalizing store with
  | nil => exact h
  | cons b rest ih =>
    rw [List.foldl_cons]
    exact ih (h.addBlock (hb b List.mem_cons_self)) fun c hc => hb c (List.mem_cons_of_mem b hc)

/-- Every text is read as a well-formed store. -/
theorem wellFormed_parse (text : Text) : (parse text).WellFormed := by
  have hclean : ∀ line ∈ significantLines text, CleanLine line :=
    fun _ => cleanLine_of_mem_significantLines
  exact wellFormed_empty.foldl_addBlock (plain_blocks hclean).2

end Store

end FramePatch.Ini
