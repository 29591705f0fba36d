import FramePatch.Literal
import FramePatch.Source

/-!
# Speed tables

A speed table gives extra cycle counts to instruction addresses. It is a list of rows in strictly
ascending order of their addresses, so two tables are equal as soon as they answer alike. Rows of
a configuration whose address or count is no literal are passed over; of several rows for one
address, in whatever spelling, the last one counts.

* `cycles_insert`: what every lookup says after a row is put in.
-/

namespace FramePatch

/-- Puts a row into ascending rows, in place of the row with its address if there is one. -/
def insertRow (address cycles : UInt32) : List (UInt32 × UInt32) → List (UInt32 × UInt32)
  | [] => [(address, cycles)]
  | r :: rest =>
    if address < r.1 then (address, cycles) :: r :: rest
    else if address = r.1 then (address, cycles) :: rest
    else r :: insertRow address cycles rest

theorem mem_insertRow {address cycles : UInt32} {rows : List (UInt32 × UInt32)}
    {r : UInt32 × UInt32} (h : r ∈ insertRow address cycles rows) :
    r = (address, cycles) ∨ r ∈ rows := by
  induction rows with
  | nil => simpa [insertRow] using h
  | cons s rest ih =>
    simp only [insertRow] at h
    split at h
    · simpa using h
    · split at h
      · rcases List.mem_cons.1 h with h | h
        · exact .inl h
        · exact .inr (List.mem_cons_of_mem _ h)
      · rcases List.mem_cons.1 h with h | h
        · exact .inr (h ▸ List.mem_cons_self)
        · exact (ih h).imp_right (List.mem_cons_of_mem _)

theorem pairwise_insertRow {address cycles : UInt32} {rows : List (UInt32 × UInt32)}
    (h : rows.Pairwise (·.1 < ·.1)) : (insertRow address cycles rows).Pairwise (·.1 < ·.1) := by
  induction rows with
  | nil => simp [insertRow]
  | cons s rest ih =>
    obtain ⟨hs, hrest⟩ := List.pairwise_cons.1 h
    simp only [insertRow]
    split
    · next hlt =>
      refine List.pairwise_cons.2 ⟨fun r hr => ?_, h⟩
      rcases List.mem_cons.1 hr with rfl | hr
      · exact hlt
      · exact UInt32.lt_trans hlt (hs r hr)
    · next hnlt =>
      split
      · next heq => exact List.pairwise_cons.2 ⟨fun r hr => by simpa [heq] using hs r hr, hrest⟩
      · next hne =>
        refine List.pairwise_cons.2 ⟨fun r hr => ?_, ih hrest⟩
        rcases mem_insertRow hr with rfl | hr
        · exact UInt32.lt_of_le_of_ne (UInt32.not_lt.1 hnlt) (Ne.symm hne)
        · exact hs r hr

/-- Cycle counts by instruction address. -/
structure SpeedTable where
  /-- The rows, each an address and its cycle count. -/
  rows : List (UInt32 × UInt32) := []
  ascending : rows.Pairwise (·.1 < ·.1) := by simp
deriving DecidableEq

namespace SpeedTable

/-- The default section of speed-table rows. -/
def speedhacksSection : Text := ['S', 'p', 'e', 'e', 'd', 'h', 'a', 'c', 'k', 's']

/-- The table without rows. -/
def empty : SpeedTable := {}

/-- The number of rows. -/
def size (t : SpeedTable) : Nat := t.rows.length

/-- Whether there are no rows. -/
def isEmpty (t : SpeedTable) : Bool := t.rows.isEmpty

/-- The cycle count of an address, 0 if it has no row. A row may hold 0 as well. -/
def cycles (t : SpeedTable) (address : UInt32) : UInt32 := (t.rows.lookup address).getD 0

/-- The table with the given row. -/
def insert (t : SpeedTable) (address cycles : UInt32) : SpeedTable :=
  ⟨insertRow address cycles t.rows, pairwise_insertRow t.ascending⟩

/-- The table with a row of a configuration, if it is well formed. -/
def insertLine (t : SpeedTable) (row : Text × Text) : SpeedTable :=
  match Literal.read? row.1, Literal.read? row.2 with
  | some address, some cycles => t.insert address cycles
  | _, _ => t

/-- The table with the rows of a section. -/
def load (t : SpeedTable) (source : Source) (name : Text) : SpeedTable :=
  (source.rows name).foldl insertLine t

/-- The table of several sources, where later ones override earlier ones. -/
def ofSources (name : Text) (sources : List Source) : SpeedTable :=
  sources.foldl (fun t source => t.load source name) empty

theorem lookup_cons_row (a : UInt32) (r : UInt32 × UInt32) (rest : List (UInt32 × UInt32)) :
    (r :: rest).lookup a = if a = r.1 then some r.2 else rest.lookup a := by
  obtain ⟨k, v⟩ := r
  rw [List.lookup_cons]
  by_cases h : a = k
  · simp [h]
  · simp [h, beq_eq_false_iff_ne.2 h]

theorem lookup_insertRow (address cycles a : UInt32) (rows : List (UInt32 × UInt32)) :
    (insertRow address cycles rows).lookup a =
      if a = address then some cycles else rows.lookup a := by
  induction rows with
  | nil => simp [insertRow]
  | cons r rest ih =>
    simp only [insertRow]
    split
    · simp [lookup_cons_row]
    · split
      · next heq => simp only [lookup_cons_row, heq]; split <;> rfl
      · next hne =>
        simp only [lookup_cons_row, ih]
        by_cases hr : a = r.1
        · simp [hr, Ne.symm hne]
        · simp [hr]

/-- A row that is put in answers for its address, and the others answer as before. -/
theorem cycles_insert (t : SpeedTable) (address cycles a : UInt32) :
    (t.insert address cycles).cycles a = if a = address then cycles else t.cycles a := by
  simp only [SpeedTable.cycles, insert, lookup_insertRow]
  split <;> rfl

end SpeedTable

end FramePatch
