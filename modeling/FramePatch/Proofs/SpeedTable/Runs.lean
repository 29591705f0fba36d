import FramePatch.Proofs.SpeedTable
import Mathlib.Data.List.Dedup
import Mathlib.Data.List.DropRight

/-!
# What a speed table holds

A table goes through steps: the rows of a section are put in, it is built anew from several
sources, or it is cleared. What it holds after any run of steps is decided by the rows that were
read since it last started anew (`rowsRead`), and of these by the well-formed ones, as the pairs of
words that they denote (`words?`). The last pair about an address counts.

- `foldl_insert_rows`: a table is what its own rows leave, put in one after another. They stand in
  ascending order, so each one comes last.
- `step_eq`: every step puts the rows that it reads into the table, or into an empty one.
- `run_eq`: a run leaves what the rows read define, by induction on the steps.
- `run_congr`: only the words of well-formed rows matter.
- `run_eq_lastWords`: all that can be asked of a table, said by the pairs of words.
-/

namespace FramePatch.SpeedTable

/-! ## Rows that count -/

/-- The address and the count that a well-formed row denotes. -/
def words? (row : Text × Text) : Option (UInt32 × UInt32) :=
  (Literal.read? row.1).bind fun address => (Literal.read? row.2).map (address, ·)

/-- The counts that pairs of words give to an address, in their order. -/
def counts (address : UInt32) (words : List (UInt32 × UInt32)) : List UInt32 :=
  (words.filter (·.1 == address)).map (·.2)

theorem mem_map_fst_iff_counts {a : UInt32} {words : List (UInt32 × UInt32)} :
    a ∈ words.map (·.1) ↔ counts a words ≠ [] := by
  simp [counts, List.filter_eq_nil_iff]

/-- A row puts in the words that it denotes, if it is well formed. -/
theorem insertLine_eq (t : SpeedTable) (row : Text × Text) :
    t.insertLine row =
      match words? row with
      | some w => t.insert w.1 w.2
      | none => t := by
  rw [insertLine, words?]
  cases Literal.read? row.1 with
  | none => rfl
  | some address => cases Literal.read? row.2 <;> rfl

/-- Rows put in one after another leave the words that they denote. -/
theorem foldl_insertLine_eq (rows : List (Text × Text)) (t : SpeedTable) :
    rows.foldl insertLine t = (rows.filterMap words?).foldl (fun t w => t.insert w.1 w.2) t := by
  induction rows generalizing t with
  | nil => rfl
  | cons row rest ih =>
    rw [List.foldl_cons, ih, insertLine_eq, List.filterMap_cons]
    cases words? row <;> rfl

/-- What a row says about an address is said by its words. -/
theorem countOf?_eq (a : UInt32) (row : Text × Text) :
    countOf? a row = (words? row).bind fun w => if w.1 = a then some w.2 else none := by
  rw [countOf?, words?]
  cases Literal.read? row.1 with
  | none => rfl
  | some address => cases Literal.read? row.2 <;> simp

theorem lastCount?_eq (a : UInt32) (rows : List (Text × Text)) :
    lastCount? a rows = (counts a (rows.filterMap words?)).getLast? := by
  have hcounts (words : List (UInt32 × UInt32)) :
      counts a words = words.filterMap fun w => if w.1 = a then some w.2 else none := by
    induction words with
    | nil => rfl
    | cons w rest ih =>
      rw [counts] at ih ⊢
      by_cases h : w.1 = a <;> simp [h, ih]
  have hrows : countOf? a = fun row =>
      (words? row).bind fun w => if w.1 = a then some w.2 else none := funext (countOf?_eq a)
  rw [lastCount?, hcounts, List.filterMap_filterMap, hrows]

/-- A row of a table is what a lookup of its address finds. -/
theorem mem_rows_iff (t : SpeedTable) {a c : UInt32} :
    (a, c) ∈ t.rows ↔ t.rows.lookup a = some c := by
  obtain ⟨rows, hascending⟩ := t
  show (a, c) ∈ rows ↔ rows.lookup a = some c
  induction rows with
  | nil => simp
  | cons r rest ih =>
    obtain ⟨hbelow, hrest⟩ := List.pairwise_cons.1 hascending
    rw [lookup_cons_row, List.mem_cons]
    by_cases ha : a = r.1
    · -- the rows behind this one have greater addresses
      have hnone : (a, c) ∉ rest := fun hmem => UInt32.ne_of_lt (hbelow _ hmem) ha.symm
      rw [if_pos ha, or_iff_left hnone, Option.some.injEq, ha]
      exact ⟨fun h => by rw [← h], fun h => by rw [← h]⟩
    · have hother : (a, c) ≠ r := fun h => ha (congrArg Prod.fst h)
      rw [if_neg ha, or_iff_right hother, ih hrest]

/-- No address has two rows. -/
theorem nodup_addresses (t : SpeedTable) : (t.rows.map (·.1)).Nodup :=
  List.pairwise_map.2 (t.ascending.imp UInt32.ne_of_lt)

/-! ## Rows put in again -/

/-- A row with an address above all others comes last. -/
theorem insertRow_of_above {a c : UInt32} {rows : List (UInt32 × UInt32)}
    (h : ∀ r ∈ rows, r.1 < a) : insertRow a c rows = rows ++ [(a, c)] := by
  induction rows with
  | nil => rfl
  | cons r rest ih =>
    have hr : r.1 < a := h r List.mem_cons_self
    rw [insertRow, if_neg (UInt32.lt_asymm hr), if_neg (UInt32.ne_of_lt hr).symm,
      ih fun s hs => h s (List.mem_cons_of_mem r hs)]
    rfl

theorem eq_of_rows_eq : ∀ {t u : SpeedTable}, t.rows = u.rows → t = u
  | ⟨_, _⟩, ⟨_, _⟩, rfl => rfl

/-- **A table** is what its own rows leave in an empty one. -/
theorem foldl_insert_rows (t : SpeedTable) :
    t.rows.foldl (fun t w => t.insert w.1 w.2) empty = t := by
  obtain ⟨rows, hascending⟩ := t
  -- the last row is above all that were put in before it
  induction rows using List.reverseRecOn with
  | nil => rfl
  | append_singleton front w ih =>
    obtain ⟨hfront, -, habove⟩ := List.pairwise_append.1 hascending
    rw [List.foldl_append, ih hfront]
    exact eq_of_rows_eq (insertRow_of_above fun r hr => habove r hr w List.mem_cons_self)

/-! ## Steps -/

/-- A step that a table goes through. -/
inductive Step where
  | load (source : Source) (name : Text)
  | replace (name : Text) (sources : List Source)
  | clear

namespace Step

/-- Whether a step drops what the table held before. -/
def startsAnew : Step → Bool
  | load _ _ => false
  | replace _ _ => true
  | clear => true

/-- The rows that a step reads, source by source. -/
def rows : Step → List (Text × Text)
  | load source name => source.rows name
  | replace name sources => sources.flatMap (·.rows name)
  | clear => []

/-- The step `s'` is like `s`, but reads the rows `new` at a place where `s` reads the rows
`old`. -/
def Swaps (s s' : Step) (old new : List (Text × Text)) : Prop :=
  s'.startsAnew = s.startsAnew ∧
    ∃ front back, s.rows = front ++ old ++ back ∧ s'.rows = front ++ new ++ back

end Step

/-- The table after a step. -/
def step (t : SpeedTable) : Step → SpeedTable
  | .load source name => t.load source name
  | .replace name sources => ofSources name sources
  | .clear => empty

/-- The table after a run of steps. -/
def run (t : SpeedTable) (steps : List Step) : SpeedTable := steps.foldl step t

theorem run_append (t : SpeedTable) (steps more : List Step) :
    t.run (steps ++ more) = (t.run steps).run more :=
  List.foldl_append

/-- **A step** puts the rows that it reads into the table, or into an empty one. -/
theorem step_eq (t : SpeedTable) (s : Step) :
    t.step s = s.rows.foldl insertLine (if s.startsAnew then empty else t) := by
  cases s with
  | load source name => rfl
  | replace name sources => exact List.foldl_flatMap.symm
  | clear => rfl

/-! ## Runs -/

/-- The rows read since the table last started anew, in the order of the steps, of their sources,
and of the rows in a source. -/
def rowsRead (steps : List Step) : List (Text × Text) :=
  ((steps.findRev? Step.startsAnew).toList ++ steps.rtakeWhile (!·.startsAnew)).flatMap Step.rows

theorem rowsRead_concat_of_startsAnew (steps : List Step) {s : Step} (h : s.startsAnew) :
    rowsRead (steps ++ [s]) = s.rows := by
  rw [rowsRead, List.rtakeWhile_concat_neg _ _ _ (by simp [h])]
  simp [List.findRev?_eq_find?_reverse, h]

theorem rowsRead_concat_of_not_startsAnew (steps : List Step) {s : Step}
    (h : s.startsAnew = false) : rowsRead (steps ++ [s]) = rowsRead steps ++ s.rows := by
  rw [rowsRead, rowsRead, List.rtakeWhile_concat_pos _ _ _ (by simp [h])]
  simp [List.findRev?_eq_find?_reverse, h]

/-- **A run** from an empty table leaves what the rows read define. -/
theorem run_eq (steps : List Step) : empty.run steps = (rowsRead steps).foldl insertLine empty := by
  -- steps are added at the end, where a table starts anew
  induction steps using List.reverseRecOn with
  | nil => rfl
  | append_singleton steps s ih =>
    have hlast : empty.run (steps ++ [s]) = (empty.run steps).step s := run_append empty steps [s]
    rw [hlast, step_eq]
    cases h : s.startsAnew with
    | true => rw [rowsRead_concat_of_startsAnew steps h, if_pos rfl]
    | false =>
      rw [rowsRead_concat_of_not_startsAnew steps h, if_neg Bool.false_ne_true, ih,
        List.foldl_append]

/-- What a lookup finds after a run. -/
theorem lookup_run (steps : List Step) (a : UInt32) :
    (empty.run steps).rows.lookup a =
      (counts a ((rowsRead steps).filterMap words?)).getLast? := by
  rw [run_eq, lookup_foldl_insertLine, lastCount?_eq]
  exact Option.or_none

/-- A step may be exchanged for one that reads other rows with the same words. -/
theorem run_congr (t : SpeedTable) (before after : List Step) {s s' : Step}
    {old new : List (Text × Text)} (h : s.Swaps s' old new)
    (hwords : new.filterMap words? = old.filterMap words?) :
    t.run (before ++ s' :: after) = t.run (before ++ s :: after) := by
  obtain ⟨hanew, front, back, hold, hnew⟩ := h
  have hstep (t : SpeedTable) : t.step s' = t.step s := by
    rw [step_eq, step_eq, hanew, hold, hnew, foldl_insertLine_eq, foldl_insertLine_eq]
    simp only [List.filterMap_append, hwords]
  rw [run_append, run_append]
  show run (step _ s') after = run (step _ s) after
  rw [hstep]

/-- **What a table holds** after any run of steps. Take the rows read since it last started anew,
and of these the well-formed ones, as pairs of words:

* an address has the count of the last pair about it, and 0 if there is none;
* the rows of the table stand in strictly ascending order, the addresses that they have are those of
  the pairs, each with the count of the last pair about it, and their number is the number of these
  addresses;
* a malformed row more, wherever it stands, changes nothing, and neither does a row that denotes the
  same words in another spelling. -/
theorem run_eq_lastWords (steps : List Step) :
    let t := empty.run steps
    let words := (rowsRead steps).filterMap words?
    (∀ a, t.cycles a = (counts a words).getLastD 0) ∧
      (t.rows.Pairwise (·.1 < ·.1) ∧
        (∀ a, a ∈ t.rows.map (·.1) ↔ a ∈ words.map (·.1)) ∧
        (∀ a c, (a, c) ∈ t.rows ↔ (counts a words).getLast? = some c) ∧
        t.size = (words.map (·.1)).dedup.length) ∧
      ∀ before s after, steps = before ++ s :: after →
        (∀ s' row, words? row = none → s.Swaps s' [] [row] →
          empty.run (before ++ s' :: after) = t) ∧
        ∀ s' row row', words? row' = words? row → s.Swaps s' [row] [row'] →
          empty.run (before ++ s' :: after) = t := by
  intro t words
  have hlookup : ∀ a, t.rows.lookup a = (counts a words).getLast? := lookup_run steps
  have hrows : ∀ a c, (a, c) ∈ t.rows ↔ (counts a words).getLast? = some c := by
    intro a c
    rw [t.mem_rows_iff, hlookup]
  have haddresses : ∀ a, a ∈ t.rows.map (·.1) ↔ a ∈ words.map (·.1) := by
    intro a
    have hrow : a ∈ t.rows.map (·.1) ↔ ∃ c, (a, c) ∈ t.rows := by simp
    rw [hrow, mem_map_fst_iff_counts, ← List.getLast?_isSome, Option.isSome_iff_exists]
    exact exists_congr (hrows a)
  refine ⟨fun a => ?_, ⟨t.ascending, haddresses, hrows, ?_⟩, ?_⟩
  · rw [SpeedTable.cycles, hlookup, List.getLastD_eq_getLast?]
  · have hperm : (t.rows.map (·.1)).Perm (words.map (·.1)).dedup := by
      refine (List.perm_ext_iff_of_nodup t.nodup_addresses (List.nodup_dedup _)).2 fun a => ?_
      rw [List.mem_dedup, haddresses]
    rw [← hperm.length_eq, List.length_map, size]
  · rintro before s after rfl
    refine ⟨fun s' row hrow h => ?_, fun s' row row' hrow h => ?_⟩
    · exact run_congr empty before after h (by simp [hrow])
    · exact run_congr empty before after h (by simp [List.filterMap_cons, hrow])

end FramePatch.SpeedTable
