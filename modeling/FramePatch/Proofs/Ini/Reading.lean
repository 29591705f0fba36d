import FramePatch.Proofs.Ini.Edits
import FramePatch.Proofs.Ini.Layout
import Mathlib.Data.List.Induction

/-!
# What an ini text says

The store that a text describes, said without reading it in order. A header announces a name; names
that differ in case only are one name, and stand for the section that is spelled as the first header
of the name spells it. A line that is no header belongs to the section of the nearest header above
it. So a section has the lines under all headers of its name, in the order of the text, and the
sections come in the order of their first headers (`Store.described`).

The reader does this in one pass, and goes back to an earlier section whenever its name comes up
again (`readLine`, `foldl_readLine`). What it has built after some lines is what these lines say
(`Describes`): one more line keeps this up (`Describes.readLine`), so it holds of every text,
however its sections are interleaved (`Store.parse_eq_described`). Nothing but the lines that count
is looked at, so the layout of the text does not matter.
-/

namespace FramePatch.Ini

/-! ## Headers -/

instance (line : Text) : Decidable (HeaderShaped line) := inferInstanceAs (Decidable (_ ∧ _))

/-- What stands in a header between the `[` and the first `]`, trimmed. -/
def bracketed (line : Text) : Text := Text.trim ((line.drop 1).takeWhile (· ≠ ']'))

/-- A header announces the name between its brackets. -/
theorem headerName?_eq (line : Text) :
    headerName? line = if HeaderShaped line then some (bracketed line) else none := by
  split
  · next h =>
    obtain ⟨hstart, hend⟩ := h
    obtain ⟨rest, rfl⟩ := List.head?_eq_some_iff.1 hstart
    have hrest : ']' ∈ rest := by simpa using hend
    obtain ⟨inside, after, rfl, hinside⟩ := List.eq_append_cons_of_mem hrest
    have hcut : Text.cut? ']' (inside ++ ']' :: after) = some (inside, after) :=
      Text.cut?_eq_some_iff.2 ⟨rfl, hinside⟩
    have htake : (inside ++ ']' :: after).takeWhile (· ≠ ']') = inside := by
      rw [List.takeWhile_append_of_pos, List.takeWhile_cons_of_neg (by simp), List.append_nil]
      intro c hc
      have hne : c ≠ ']' := fun h => hinside (h ▸ hc)
      simpa using hne
    rw [headerName?, Text.stripStart?_eq_some_iff.2 rfl, Option.bind_some, hcut, bracketed,
      List.drop_one, List.tail_cons, htake]
    rfl
  · next h => exact headerName?_eq_none_iff.2 h

/-- The names that the headers among some lines announce, in their order. -/
def headers (lines : List Text) : List Text := (lines.filter (HeaderShaped ·)).map bracketed

/-- The names without those that some name before them spells in another way, or in the same. -/
def firstSpellings : List Text → List Text
  | [] => []
  | name :: rest => name :: (firstSpellings rest).filter (!Text.sameFolded name ·)

/-- The name in the last header of some lines. -/
def lastHeader? (lines : List Text) : Option Text := (headers lines).getLast?

/-! ## Lines under headers -/

/-- The lines that are no headers, for which `p` holds of the nearest header above them, if any. -/
def linesWhere (p : Option Text → Bool) (lines : List Text) : List Text :=
  (lines.zipIdx.filter fun (line, i) => !HeaderShaped line && p (lastHeader? (lines.take i))).map
    (·.1)

/-- The lines that are no headers and have a header above them. -/
def linesUnderHeaders : List Text → List Text := linesWhere (·.isSome)

/-- The lines that are no headers, with `name` in the nearest header above them. -/
def linesUnder (name : Text) : List Text → List Text := linesWhere (·.any (Text.sameFolded name ·))

/-- The store that lines describe: a section for each name that headers announce, in the order and
in the spelling of the first ones, with the lines under all of them. -/
def Store.described (lines : List Text) : Store :=
  ⟨(firstSpellings (headers lines)).map fun name => ⟨name, linesUnder name lines⟩⟩

/-! ### One more line -/

theorem headers_concat (lines : List Text) (line : Text) :
    headers (lines ++ [line]) =
      headers lines ++ if HeaderShaped line then [bracketed line] else [] := by
  rw [headers, List.filter_append, List.map_append]
  by_cases h : HeaderShaped line <;> simp [headers, h]

/-- A name is spelled in some way among the first spellings if it is so among all. -/
theorem fold_mem_firstSpellings {key : Text} {names : List Text} :
    key ∈ (firstSpellings names).map Text.fold ↔ key ∈ names.map Text.fold := by
  induction names with
  | nil => rfl
  | cons name rest ih =>
    by_cases h : key = Text.fold name
    · simp [firstSpellings, h]
    · rw [firstSpellings, List.map_cons, List.map_cons, List.mem_cons, List.mem_cons, ← ih]
      simp only [h, false_or, List.mem_map, List.mem_filter]
      constructor
      · rintro ⟨other, ⟨hmem, -⟩, hkey⟩
        exact ⟨other, hmem, hkey⟩
      · rintro ⟨other, hmem, hkey⟩
        refine ⟨other, ⟨hmem, ?_⟩, hkey⟩
        simpa [Text.sameFolded, hkey] using Ne.symm h

/-- The last name is a first spelling unless the name was there before. -/
theorem firstSpellings_concat (names : List Text) (name : Text) :
    firstSpellings (names ++ [name]) =
      firstSpellings names ++ if Text.fold name ∈ names.map Text.fold then [] else [name] := by
  induction names with
  | nil => rfl
  | cons first rest ih =>
    rw [List.cons_append, firstSpellings, ih, List.filter_append, firstSpellings, List.cons_append,
      List.map_cons]
    congr 2
    by_cases hfirst : Text.fold name = Text.fold first
    · split <;> simp [Text.sameFolded, hfirst]
    · have hsame : Text.sameFolded first name = false := by
        simpa [Text.sameFolded] using Ne.symm hfirst
      simp only [List.mem_cons, hfirst, false_or]
      split <;> simp [hsame]

theorem linesWhere_concat (p : Option Text → Bool) (lines : List Text) (line : Text) :
    linesWhere p (lines ++ [line]) =
      linesWhere p lines ++
        if !HeaderShaped line && p (lastHeader? lines) then [line] else [] := by
  -- what is above the lines that were there before stays the same
  have hbefore : ∀ {other : Text} {i : Nat}, (other, i) ∈ lines.zipIdx →
      (lines ++ [line]).take i = lines.take i := fun hmem =>
    List.take_append_of_le_length (Nat.le_of_lt (List.snd_lt_of_mem_zipIdx hmem))
  rw [linesWhere, List.zipIdx_append, List.filter_append, List.map_append, linesWhere]
  congr 1
  · exact congrArg _ (List.filter_congr fun ⟨_, _⟩ hmem => by simp only [hbefore hmem])
  · simp only [List.zipIdx_singleton, Nat.zero_add, List.filter_cons, List.filter_nil,
      List.take_left]
    split <;> rfl

/-! ## Reading in one pass -/

/-- Reads one line, into the store and under the name that was announced last. -/
def readLine (state : Store × Option Text) (line : Text) : Store × Option Text :=
  match headerName? line, state.2 with
  | some name, _ => (state.1.addBlock ⟨name, []⟩, some name)
  | none, some name => (state.1.addBlock ⟨name, [line]⟩, some name)
  | none, none => state

namespace Store

theorem addBlock_addBlock (store : Store) (name : Text) (lines more : List Text) :
    (store.addBlock ⟨name, lines⟩).addBlock ⟨name, more⟩ =
      store.addBlock ⟨name, lines ++ more⟩ := by
  simp only [addBlock, edit_edit_self, List.append_assoc]

/-- The raw lines after a block was added, whatever section is asked for. -/
theorem rawLines_addBlock (store : Store) (block : Section) (asked : Text) :
    (store.addBlock block).rawLines asked = store.rawLines asked ++
      if Text.fold asked = Text.fold block.name then block.lines else [] := by
  rw [addBlock, rawLines_edit]
  split
  · rfl
  · exact (List.append_nil _).symm

/-- A block without lines adds nothing to a section that is there. -/
theorem addBlock_nil {store : Store} {name : Text} (h : store.hasSection name) :
    store.addBlock ⟨name, []⟩ = store := by
  obtain ⟨ss⟩ := store
  simp only [hasSection, find?, List.find?_isSome] at h
  simp only [addBlock, edit, List.append_nil, mk.injEq]
  induction ss with
  | nil => simp at h
  | cons s rest ih =>
    by_cases hs : s.isNamed name
    · simp [editSection, hs]
    · simp only [List.mem_cons, exists_eq_or_imp, hs, false_or, Bool.false_eq_true] at h
      simp [editSection, hs, ih h]

/-- A block adds its lines to those that are there already. -/
theorem perm_addBlock (store : Store) (block : Section) :
    ((store.addBlock block).sections.flatMap (·.lines)).Perm
      (store.sections.flatMap (·.lines) ++ block.lines) := by
  obtain ⟨ss⟩ := store
  simp only [addBlock, edit]
  induction ss with
  | nil => simp [editSection]
  | cons s rest ih =>
    rw [editSection]
    split
    · simp only [List.flatMap_cons, List.append_assoc]
      exact List.Perm.append_left _ List.perm_append_comm
    · simp only [List.flatMap_cons, List.append_assoc]
      exact List.Perm.append_left _ ih

/-- Where names are distinct, every section is the one that is found under its name. -/
theorem find?_of_mem {store : Store} (h : (store.names.map Text.fold).Nodup) {s : Section}
    (hs : s ∈ store.sections) : store.find? s.name = some s := by
  obtain ⟨ss⟩ := store
  simp only [names, find?] at h hs ⊢
  induction ss with
  | nil => exact absurd hs List.not_mem_nil
  | cons first rest ih =>
    obtain ⟨hfirst, hrest⟩ := List.nodup_cons.1 h
    rcases List.mem_cons.1 hs with rfl | hs
    · exact List.find?_cons_of_pos (Text.sameFolded_iff.2 rfl)
    · have hother : first.isNamed s.name = false := by
        rw [Bool.eq_false_iff]
        intro hnamed
        rw [Section.isNamed, Text.sameFolded_iff] at hnamed
        exact hfirst (hnamed ▸ List.mem_map_of_mem (List.mem_map_of_mem hs))
      rw [List.find?_cons_of_neg (by simp [hother])]
      exact ih hrest hs

/-- A store with distinct names is known by its names and by the raw lines under them. -/
theorem eq_map_rawLines {store : Store} (h : (store.names.map Text.fold).Nodup) :
    store = ⟨store.names.map fun name => ⟨name, store.rawLines name⟩⟩ := by
  have hsame : ∀ s ∈ store.sections, (⟨s.name, store.rawLines s.name⟩ : Section) = s := by
    intro s hs
    rw [rawLines, find?_of_mem h hs]
    rfl
  have hmap : (store.names.map fun name => (⟨name, store.rawLines name⟩ : Section)) =
      store.sections.map id := by
    rw [names, List.map_map]
    exact List.map_congr_left hsame
  rw [hmap, List.map_id]

/-- One pass over the lines adds the blocks that they fall into; those in front of the first header
go to the section that was announced before, if one was. -/
theorem foldl_readLine (lines : List Text) (store : Store) :
    (lines.foldl readLine (store, none)).1 = (blocks lines).2.foldl addBlock store ∧
      ∀ name, store.hasSection name → (lines.foldl readLine (store, some name)).1 =
        (blocks lines).2.foldl addBlock (store.addBlock ⟨name, (blocks lines).1⟩) := by
  induction lines generalizing store with
  | nil => exact ⟨rfl, fun name hname => (addBlock_nil hname).symm⟩
  | cons line rest ih =>
    cases hline : headerName? line with
    | some next =>
      -- the block of this header is made empty, and filled with the lines that follow
      have hblock : (rest.foldl readLine (store.addBlock ⟨next, []⟩, some next)).1 =
          (blocks rest).2.foldl addBlock (store.addBlock ⟨next, (blocks rest).1⟩) := by
        have hrest := (ih (store.addBlock ⟨next, []⟩)).2 next (hasSection_edit.2 (.inr rfl))
        rwa [addBlock_addBlock, List.nil_append] at hrest
      simp only [List.foldl_cons, readLine, blocks, hline]
      refine ⟨hblock, fun name hname => ?_⟩
      rw [addBlock_nil hname]
      exact hblock
    | none =>
      simp only [List.foldl_cons, readLine, blocks, hline]
      refine ⟨(ih store).1, fun name hname => ?_⟩
      have hrest := (ih (store.addBlock ⟨name, [line]⟩)).2 name (hasSection_edit.2 (.inr rfl))
      rwa [addBlock_addBlock, List.singleton_append] at hrest

end Store

/-! ### What was read -/

/-- What the reader has made of some lines is what these lines say. -/
structure Describes (lines : List Text) (state : Store × Option Text) : Prop where
  names : state.1.names = firstSpellings (headers lines)
  rawLines : ∀ name, state.1.rawLines name = linesUnder name lines
  all : (state.1.sections.flatMap (·.lines)).Perm (linesUnderHeaders lines)
  current : state.2 = lastHeader? lines

theorem describes_nil : Describes [] (.empty, none) :=
  ⟨rfl, fun _ => rfl, .nil, rfl⟩

namespace Describes

variable {lines : List Text} {store : Store} {line : Text}

/-- There is a section exactly for the names that were announced. -/
theorem hasSection_iff {current : Option Text} (h : Describes lines (store, current))
    {name : Text} : store.hasSection name ↔ Text.fold name ∈ (headers lines).map Text.fold := by
  have hnames : store.names = firstSpellings (headers lines) := h.names
  rw [Store.hasSection_iff, hnames, fold_mem_firstSpellings]

/-- A header makes a section, unless there is one of its name. -/
theorem header {current : Option Text} (h : Describes lines (store, current))
    (hline : HeaderShaped line) :
    Describes (lines ++ [line])
      (store.addBlock ⟨bracketed line, []⟩, some (bracketed line)) := by
  have hwhere : ∀ p, linesWhere p (lines ++ [line]) = linesWhere p lines := by
    intro p
    simp [linesWhere_concat, hline]
  constructor
  · rw [headers_concat, if_pos hline, firstSpellings_concat, ← h.names]
    simp only [Store.addBlock, Store.names_edit, h.hasSection_iff]
  · intro name
    rw [Store.rawLines_addBlock, h.rawLines, ite_self, List.append_nil]
    exact (hwhere _).symm
  · have hadded := Store.perm_addBlock store ⟨bracketed line, []⟩
    rw [List.append_nil] at hadded
    rw [linesUnderHeaders, hwhere]
    exact hadded.trans h.all
  · rw [lastHeader?, headers_concat, if_pos hline, List.getLast?_concat]

/-- A line under a header goes to the section of that header. -/
theorem under {current : Text} (h : Describes lines (store, some current))
    (hline : ¬HeaderShaped line) :
    Describes (lines ++ [line]) (store.addBlock ⟨current, [line]⟩, some current) := by
  have hlast : lastHeader? lines = some current := h.current.symm
  have hheaders : headers (lines ++ [line]) = headers lines := by
    rw [headers_concat, if_neg hline, List.append_nil]
  have hwhere : ∀ p, linesWhere p (lines ++ [line]) =
      linesWhere p lines ++ if p (some current) then [line] else [] := by
    intro p
    simp [linesWhere_concat, hline, hlast]
  constructor
  · have hsection : store.hasSection current :=
      h.hasSection_iff.2 (List.mem_map_of_mem (List.mem_of_getLast? hlast))
    rw [hheaders, ← h.names]
    exact Store.names_edit_of_mem _ hsection
  · intro name
    rw [Store.rawLines_addBlock, h.rawLines, linesUnder, hwhere]
    simp only [Option.any_some, Text.sameFolded_iff]
  · rw [linesUnderHeaders, hwhere]
    exact (Store.perm_addBlock store ⟨current, [line]⟩).trans (h.all.append_right [line])
  · rw [lastHeader?, hheaders]
    exact h.current

/-- A line with no header above it goes nowhere. -/
theorem loose (h : Describes lines (store, none)) (hline : ¬HeaderShaped line) :
    Describes (lines ++ [line]) (store, none) := by
  have hlast : lastHeader? lines = none := h.current.symm
  have hheaders : headers (lines ++ [line]) = headers lines := by
    rw [headers_concat, if_neg hline, List.append_nil]
  have hwhere : ∀ p, p none = false → linesWhere p (lines ++ [line]) = linesWhere p lines := by
    intro p hp
    simp [linesWhere_concat, hlast, hp]
  refine ⟨?_, fun name => ?_, ?_, ?_⟩
  · rw [hheaders]
    exact h.names
  · exact (h.rawLines name).trans (hwhere _ rfl).symm
  · rw [linesUnderHeaders, hwhere _ rfl]
    exact h.all
  · rw [lastHeader?, hheaders]
    exact h.current

/-- **One more line** is read as what it says behind those before it. -/
theorem readLine {state : Store × Option Text} (h : Describes lines state) (line : Text) :
    Describes (lines ++ [line]) (readLine state line) := by
  obtain ⟨store, current⟩ := state
  rw [Ini.readLine, headerName?_eq]
  by_cases hline : HeaderShaped line
  · rw [if_pos hline]
    exact h.header hline
  · rw [if_neg hline]
    cases current with
    | some current => exact h.under hline
    | none => exact h.loose hline

end Describes

/-- What was read of any number of lines is what they say. -/
theorem describes_foldl_readLine (lines : List Text) :
    Describes lines (lines.foldl readLine (.empty, none)) := by
  induction lines using List.reverseRecOn with
  | nil => exact describes_nil
  | append_singleton lines line ih =>
    rw [List.foldl_append]
    exact ih.readLine line

namespace Store

/-- **A text is read as what it says**: the sections, their order and spelling, and the lines of
each are those that the lines which count describe. All lines under headers are in the store, each
as often as in the text, and no others. The layout does not matter: carriage returns may be put
before newlines or taken from them, lines may be indented, and blank lines put in. -/
theorem parse_eq_described (text : Text) :
    parse text = described (significantLines text) ∧
      ((parse text).sections.flatMap (·.lines)).Perm (linesUnderHeaders (significantLines text)) ∧
      parse (withReturns text) = parse text ∧ parse (withoutReturns text) = parse text ∧
      ∀ other, RelaidText text other → parse other = parse text := by
  have hread : parse text = ((significantLines text).foldl readLine (.empty, none)).1 :=
    (foldl_readLine (significantLines text) .empty).1.symm
  have hdescribes := describes_foldl_readLine (significantLines text)
  refine ⟨?_, ?_, ?_, ?_, fun other h => ?_⟩
  · rw [eq_map_rawLines (wellFormed_parse text).distinct, hread, hdescribes.names, described]
    simp only [hdescribes.rawLines]
  · rw [hread]
    exact hdescribes.all
  · rw [parse, parse, significantLines_withReturns]
  · rw [parse, parse, significantLines_withoutReturns]
  · rw [parse, parse, significantLines_of_relaid h]

/-- Two sections that take turns, the second one under a header with a rest behind it; a line before
them; and a line with a bracket that is never closed. -/
def interleaved : Text := "0\n[A]\n1\n[b] ]\n[ 2\n[ a ]\n3\n[B]\n4".toList

/-- The same lines, some of them indented or ended by a carriage return, and with blank lines. -/
def indented : Text := "0\n\n[A]\r\n\t1\n[b] ]\r\n[ 2\n \t[ a ]\n3\n \n[B]\n4".toList

theorem parse_eq_described_indented :
    RelaidText interleaved indented ∧ parse indented = parse interleaved ∧
      parse interleaved =
        ⟨[⟨['A'], [['1'], ['3']]⟩, ⟨['b'], [['[', ' ', '2'], ['4']]⟩]⟩ := by
  have hreturn : ∀ c ∈ ['\r'], Text.isBlank c := List.forall_mem_singleton.2 rfl
  have htab : ∀ c ∈ ['\t'], Text.isBlank c := List.forall_mem_singleton.2 rfl
  have hindent : ∀ c ∈ [' ', '\t'], Text.isBlank c :=
    List.forall_mem_cons.2 ⟨rfl, List.forall_mem_singleton.2 rfl⟩
  have hnone : ∀ c ∈ ([] : Text), Text.isBlank c := List.forall_mem_nil _
  have hspace : ∀ c ∈ [' '], Text.isBlank c := List.forall_mem_singleton.2 rfl
  have hrelaid : RelaidText interleaved indented :=
    .same (.blankLine hnone (.line hnone hreturn (.line htab hnone (.line hnone hreturn
      (.same (.line hindent hnone (.same (.blankLine hspace (.same (.same .nil _) _)) _)) _))))) _
  exact ⟨hrelaid, (parse_eq_described interleaved).2.2.2.2 indented hrelaid, by decide⟩

end Store

end FramePatch.Ini
