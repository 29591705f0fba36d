import FramePatch.Proofs.Ini.SetRow
import FramePatch.Proofs.Literal
import FramePatch.SpeedTable

/-!
# Which row counts

A speed table is read row by row, and a row about an address replaces what was there for it. So the
count of an address is that of the last well-formed row about it, in whatever spelling
(`lookup_foldl_insertLine`), over the shipped rows and then the user's (`cycles_ofSources`).

A count is set in the row whose key is the eight-digit spelling of the address. The rows behind that
row stay where they are, so one of them that is about the same address in another spelling still has
the last word (`countBehind?`, `cycles_set`).
-/

namespace FramePatch

namespace SpeedTable

/-! ## Reading rows -/

/-- The count that a row gives to an address, if the row is well formed and about that address. -/
def countOf? (address : UInt32) (row : Text × Text) : Option UInt32 :=
  if Literal.read? row.1 = some address then Literal.read? row.2 else none

/-- The count that the last well-formed row about an address gives. -/
def lastCount? (address : UInt32) (rows : List (Text × Text)) : Option UInt32 :=
  (rows.filterMap (countOf? address)).getLast?

theorem lastCount?_append (address : UInt32) (rows more : List (Text × Text)) :
    lastCount? address (rows ++ more) = (lastCount? address more).or (lastCount? address rows) := by
  rw [lastCount?, List.filterMap_append, List.getLast?_append]
  rfl

theorem lookup_insertLine (t : SpeedTable) (row : Text × Text) (a : UInt32) :
    (t.insertLine row).rows.lookup a = (countOf? a row).or (t.rows.lookup a) := by
  rw [insertLine, countOf?]
  cases hkey : Literal.read? row.1 with
  | none => simp
  | some address =>
    cases hvalue : Literal.read? row.2 with
    | none => simp
    | some cycles =>
      simp only [insert, lookup_insertRow, Option.some.injEq]
      by_cases h : a = address
      · simp [h]
      · simp [h, Ne.symm h]

/-- Rows put in one after another: the last one about an address counts. -/
theorem lookup_foldl_insertLine (rows : List (Text × Text)) (t : SpeedTable) (a : UInt32) :
    (rows.foldl insertLine t).rows.lookup a = (lastCount? a rows).or (t.rows.lookup a) := by
  induction rows generalizing t with
  | nil => rfl
  | cons row rest ih =>
    have hsplit : row :: rest = [row] ++ rest := rfl
    have hone : lastCount? a [row] = countOf? a row := by
      cases h : countOf? a row <;> simp [lastCount?, h]
    rw [List.foldl_cons, ih, lookup_insertLine, hsplit, lastCount?_append, hone, Option.or_assoc]

/-- The table of a shipped and a user's source is read from the rows of both. -/
theorem ofSources_eq_foldl (name : Text) (shipped user : Source) :
    ofSources name [shipped, user] =
      (shipped.rows name ++ user.rows name).foldl insertLine empty :=
  List.foldl_append.symm

/-- The count of an address in the table of a shipped and a user's source. -/
theorem cycles_ofSources (name : Text) (shipped user : Source) (a : UInt32) :
    (ofSources name [shipped, user]).cycles a =
      (lastCount? a (shipped.rows name ++ user.rows name)).getD 0 := by
  rw [ofSources_eq_foldl, SpeedTable.cycles, lookup_foldl_insertLine]
  exact congrArg (Option.getD · 0) Option.or_none

section Congr

variable {name : Text} {shipped shipped' user user' : Source}

/-- The table depends on the rows of one section only. -/
theorem ofSources_congr (hshipped : shipped'.rows name = shipped.rows name)
    (huser : user'.rows name = user.rows name) :
    ofSources name [shipped', user'] = ofSources name [shipped, user] := by
  rw [ofSources_eq_foldl, ofSources_eq_foldl, hshipped, huser]

/-- The count of an address depends on the last counts that both sources give to it. -/
theorem cycles_congr {a : UInt32}
    (hshipped : lastCount? a (shipped'.rows name) = lastCount? a (shipped.rows name))
    (huser : lastCount? a (user'.rows name) = lastCount? a (user.rows name)) :
    (ofSources name [shipped', user']).cycles a = (ofSources name [shipped, user]).cycles a := by
  rw [cycles_ofSources, cycles_ofSources, lastCount?_append, lastCount?_append, hshipped, huser]

end Congr

end SpeedTable

/-! ## Setting a row -/

namespace Literal

/-- The spelling of an address is a key that reads back. -/
theorem plainKey_hex (a : UInt32) : Ini.PlainKey (hex a) := by
  constructor
  · exact List.cons_ne_nil _ _
  · exact .of_forall fun _ hch => Text.isBlank_of_isAlphanum (isAlphanum_of_mem_hex hch)
  · intro hmem
    exact absurd (isAlphanum_of_mem_hex hmem) (by decide)
  · rfl

/-- A decimal value reads back as it is, without blanks or quotes to be taken off. -/
theorem unquote_decimal (c : UInt32) : Ini.unquote (Text.trim (decimal c)) = decimal c := by
  have htrimmed : Text.Trimmed (decimal c) :=
    .of_forall fun _ hch => Text.isBlank_of_isAlphanum (isAlphanum_of_mem_decimal hch)
  rw [htrimmed.trim_eq]
  refine Ini.unquote_of_head fun hhead => ?_
  exact absurd (isAlphanum_of_mem_decimal (List.mem_of_head? hhead)) (by decide)

/-- The row of an address is a plain line. -/
theorem plainLine_row (a c : UInt32) : Ini.PlainLine (Ini.rowLine (hex a) (decimal c)) := by
  obtain ⟨front, d, hfront⟩ : ∃ front d, decimal c = front ++ [d] :=
    (List.eq_nil_or_concat' _).resolve_left (Numeral.decimal_ne_nil c.toNat)
  have hlast : Text.isBlank d = false :=
    Text.isBlank_of_isAlphanum (isAlphanum_of_mem_decimal (hfront ▸ List.mem_concat_self))
  have hline : Ini.rowLine (hex a) (decimal c) =
      '0' :: ('x' :: Numeral.hex 8 a.toNat ++ [' ', '=', ' '] ++ front) ++ [d] := by
    rw [Ini.rowLine, hfront]
    simp [hex]
  refine ⟨⟨?_, ?_, ?_⟩, ?_⟩
  · rw [hline]
    exact List.cons_ne_nil _ _
  · rw [hline]
    exact .of_ends (by decide) hlast
  · intro hmem
    rcases List.mem_append.1 hmem with hmem | hmem
    · rcases List.mem_append.1 hmem with hmem | hmem
      · exact absurd (isAlphanum_of_mem_hex hmem) (by decide)
      · exact absurd hmem (by decide)
    · exact absurd (isAlphanum_of_mem_decimal hmem) (by decide)
  · intro hshape
    exact absurd (Option.some.inj hshape.1) (by decide)

end Literal

namespace SpeedTable

/-- A user's store in which the row of an address was set. -/
def setCycles (user : Ini.Store) (address cycles : UInt32) : Ini.Store :=
  user.set speedhacksSection (Literal.hex address) (Literal.decimal cycles)

/-- The count that rows behind the row of an address give to that address, under other keys. -/
def countBehind? (user : Ini.Store) (address : UInt32) : Option UInt32 :=
  lastCount? address
    ((Ini.linesAfterRow (Literal.hex address) (user.rawLines speedhacksSection)).filterMap Ini.row?)

/-- **Setting the row of an address** gives the address its count, unless a row behind it has
another one. What the shipped source says does not matter. -/
theorem cycles_set (shipped : Source) (user : Ini.Store) (a c : UInt32) :
    (ofSources speedhacksSection [shipped, (setCycles user a c).toSource]).cycles a =
      (countBehind? user a).getD c := by
  have hone : lastCount? a [(Literal.hex a, Literal.decimal c)] = some c := by
    simp [lastCount?, countOf?]
  have hrows : (setCycles user a c).toSource.rows speedhacksSection = _ :=
    user.rows_set_self speedhacksSection (Literal.plainKey_hex a) (Literal.decimal c)
  rw [cycles_ofSources, hrows, Literal.unquote_decimal, ← List.singleton_append,
    lastCount?_append, lastCount?_append, lastCount?_append, hone, ← countBehind?]
  cases countBehind? user a <;> rfl

/-- One row of the section is set, and no other line is changed. -/
theorem oneRowSet_setCycles (user : Ini.Store) (a c : UInt32) :
    Ini.OneRowSet (Literal.hex a) (Literal.decimal c) (user.rawLines speedhacksSection)
      ((setCycles user a c).rawLines speedhacksSection) := by
  rw [setCycles, Ini.Store.set, Ini.Store.rawLines_edit_self user _ rfl]
  exact Ini.oneRowSet_setRow _ _ _

/-- A row whose key spells an address, in whatever case, says nothing about another address. -/
theorem counts_cons_of_isRowOf {a b : UInt32} (hab : a ≠ b) {line : Text}
    (h : Ini.isRowOf (Literal.hex a) line) (rest : List Text) :
    ((line :: rest).filterMap Ini.row?).filterMap (countOf? b) =
      (rest.filterMap Ini.row?).filterMap (countOf? b) := by
  obtain ⟨row, hrow, hkey⟩ := Ini.isRowOf_iff.1 h
  have hread : Literal.read? row.1 = some a :=
    (Literal.read?_congr hkey).trans (Literal.read?_hex a)
  have hnone : countOf? b row = none := by
    rw [countOf?, hread, if_neg]
    simpa using hab
  rw [List.filterMap_cons_some hrow, List.filterMap_cons_none hnone]

/-- **Setting the row of an address** changes the last count of no other address. -/
theorem lastCount?_of_oneRowSet {a b : UInt32} (hab : a ≠ b) {value : Text}
    {before after : List Text} (h : Ini.OneRowSet (Literal.hex a) value before after) :
    lastCount? b (after.filterMap Ini.row?) = lastCount? b (before.filterMap Ini.row?) := by
  have hnew : Ini.isRowOf (Literal.hex a) (Ini.rowLine (Literal.hex a) value) :=
    Ini.isRowOf_iff.2 ⟨_, Ini.row?_rowLine (Literal.plainKey_hex a) value, rfl⟩
  rw [lastCount?, lastCount?]
  rcases h with rfl | ⟨front, old, rest, hold, rfl, rfl⟩
  · rw [List.filterMap_append, List.filterMap_append, counts_cons_of_isRowOf hab hnew]
    simp
  · simp only [List.filterMap_append, counts_cons_of_isRowOf hab hnew,
      counts_cons_of_isRowOf hab hold]

/-- The store stays well-formed. -/
theorem wellFormed_setCycles {user : Ini.Store} (h : user.WellFormed) (a c : UInt32) :
    (setCycles user a c).WellFormed :=
  h.set ⟨⟨by decide, by decide⟩, by decide, by decide⟩ (Literal.plainLine_row a c)

end SpeedTable

end FramePatch
