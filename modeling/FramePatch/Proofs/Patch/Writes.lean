import FramePatch.Patch.Apply
import FramePatch.Proofs.Guest.Replay

/-!
# The writes of patches

What patches do to a memory of bytes, said twice: by the writes that they make, and byte by byte.

Whether a conditional entry makes its write hangs on what the entries before it have written, over
whatever widths and offsets. So the writes are said in step with the memory that they lead to:
`writesAfter` looks for the comparand of an entry in the memory that the writes before it leave when
they are replayed. One entry that is applied to a recorded memory makes its write and notes it
(`apply_recorded`), and by induction the record of a run is the list of its writes, with the memory
that they lead to (`applyEntries_replay`). What is then in a byte is decided by the last write to
cover it (`applyAll_bytes`).
-/

namespace FramePatch

universe u

/-! ## One entry -/

namespace Entry

/-- The write that an entry makes. -/
def toWrite (e : Entry) : GuestWrite := ⟨e.width, e.address, e.width.truncate e.value⟩

/-- Whether an entry takes place in a memory of bytes: it has no condition, or the bytes from its
address on denote its comparand, cut to as many bytes. -/
def TakesPlace (e : Entry) (m : ByteMemory) : Prop :=
  e.conditional = false ∨
    bigEndian (m.load e.address e.width.bytes) = e.comparand.toNat % Nat.pow 256 e.width.bytes

instance (e : Entry) (m : ByteMemory) : Decidable (e.TakesPlace m) :=
  inferInstanceAs (Decidable (_ ∨ _))

theorem holds_iff (e : Entry) (m : ByteMemory) : e.holds m ↔ e.TakesPlace m := by
  rw [holds, TakesPlace, Bool.or_eq_true, beq_iff_eq, ← UInt32.toNat_inj, ByteMemory.toNat_read,
    Width.toNat_truncate, Bool.not_eq_true']

variable {μ : Type u} [GuestMemory μ]

/-- **One entry** on a recorded memory: if it takes place, its write is made and noted. -/
theorem apply_recorded (e : Entry) (r : Recorded μ) :
    e.apply r =
      if e.holds r.memory then ⟨e.toWrite.perform r.memory, r.log ++ [e.toWrite]⟩ else r := by
  have hholds : e.holds r = e.holds r.memory := by rw [holds, holds, Recorded.read_eq]
  rw [apply, hholds, Recorded.write_eq]
  rfl

theorem memory_apply (e : Entry) (r : Recorded μ) : (e.apply r).memory = e.apply r.memory := by
  rw [apply_recorded, apply]
  split
  · exact GuestMemory.write_truncate ..
  · rfl

end Entry

/-! ## Entries and patches -/

namespace Patch

/-- Noting writes does not change what they do. -/
theorem memory_applyEntries {μ : Type u} [GuestMemory μ] (es : List Entry) (r : Recorded μ) :
    (applyEntries es r).memory = applyEntries es r.memory := by
  induction es generalizing r with
  | nil => rfl
  | cons e rest ih =>
    show (applyEntries rest (e.apply r)).memory = applyEntries rest (e.apply r.memory)
    rw [ih, Entry.memory_apply]

/-- The writes that entries make on a memory on which the writes of `log` were made before. An entry
makes its write if it takes place in the memory that all writes before it lead to. -/
def writesAfter (m : ByteMemory) (log : List GuestWrite) : List Entry → List GuestWrite
  | [] => []
  | e :: rest =>
    if e.TakesPlace (GuestWrite.replay log m) then
      e.toWrite :: writesAfter m (log ++ [e.toWrite]) rest
    else writesAfter m log rest

/-- A comparand may be met by what an entry before wrote, at another width and offset. -/
example :
    let zero : ByteMemory := { byte := fun _ => 0, isRam := fun _ => true, isCode := fun _ => true }
    writesAfter zero []
        [⟨0xFFFFFFFE, .dword, 0x11223344, false, 0⟩, ⟨0, .byte, 0x155, true, 0x733⟩,
         ⟨0xFFFFFFFF, .word, 0, true, 0⟩] =
      [⟨.dword, 0xFFFFFFFE, 0x11223344⟩, ⟨.byte, 0, 0x55⟩] := by
  decide

theorem writesAfter_sublist (m : ByteMemory) (log : List GuestWrite) (es : List Entry) :
    (writesAfter m log es).Sublist (es.map Entry.toWrite) := by
  induction es generalizing log with
  | nil => exact List.Sublist.slnil
  | cons e rest ih =>
    rw [writesAfter]
    split
    · exact (ih _).cons_cons e.toWrite
    · exact (ih _).cons e.toWrite

/-- **Entries on a recorded memory** leave their writes behind those noted before, and the memory
that all of them lead to. -/
theorem applyEntries_replay (m : ByteMemory) (log : List GuestWrite) (es : List Entry) :
    let writes := log ++ writesAfter m log es
    applyEntries es (Recorded.mk (GuestWrite.replay log m) log) =
      ⟨GuestWrite.replay writes m, writes⟩ := by
  induction es generalizing log with
  | nil => simp [applyEntries, writesAfter]
  | cons e rest ih =>
    intro writes
    show applyEntries rest (e.apply (Recorded.mk (GuestWrite.replay log m) log)) = _
    rw [Entry.apply_recorded]
    by_cases h : e.TakesPlace (GuestWrite.replay log m)
    · have hwrites : writes = (log ++ [e.toWrite]) ++ writesAfter m (log ++ [e.toWrite]) rest := by
        simp [writes, writesAfter, h]
      have hmemory : e.toWrite.perform (GuestWrite.replay log m) =
          GuestWrite.replay (log ++ [e.toWrite]) m := by
        simp [GuestWrite.replay]
      rw [if_pos ((e.holds_iff _).2 h), hmemory, hwrites]
      exact ih (log ++ [e.toWrite])
    · have hwrites : writes = log ++ writesAfter m log rest := by simp [writes, writesAfter, h]
      rw [if_neg (mt (e.holds_iff _).1 h), hwrites]
      exact ih log

/-- **What patches do to bytes.** The entries of the enabled patches are taken in their order. Those
of them make their writes, and no other writes are made, that have no condition or find their
comparand, cut to their width, in the memory that the writes before them lead to. In the end an
address holds the digit of the last write to cover it, and what it held before if there is none. -/
theorem applyAll_bytes (ps : List Patch) (m : ByteMemory) :
    let entries := (ps.filter (·.enabled)).flatMap (·.entries)
    let run := applyAll ps (Recorded.mk m [])
    run.log = writesAfter m [] entries ∧ run.log.Sublist (entries.map Entry.toWrite) ∧
      run.memory = applyAll ps m ∧
      ∀ a, (applyAll ps m).byte a =
        match (run.log.filter (·.Covers a)).getLast? with
        | some w => w.digitAt a
        | none => m.byte a := by
  intro entries run
  have hrun : run = ⟨GuestWrite.replay (writesAfter m [] entries) m, writesAfter m [] entries⟩ := by
    show applyAll ps (Recorded.mk m []) = _
    rw [applyAll_eq_applyEntries]
    exact applyEntries_replay m [] entries
  have hlog : run.log = writesAfter m [] entries := congrArg Recorded.log hrun
  have hmemory : run.memory = applyAll ps m := by
    show (applyAll ps (Recorded.mk m [])).memory = _
    rw [applyAll_eq_applyEntries, applyAll_eq_applyEntries, memory_applyEntries]
  refine ⟨hlog, hlog ▸ writesAfter_sublist m [] entries, hmemory, fun a => ?_⟩
  have hreplay : applyAll ps m = GuestWrite.replay run.log m := by
    rw [← hmemory, hrun]
  rw [hreplay, ByteMemory.replay_eq]
  show (GuestWrite.lastByteAt? run.log a).getD (m.byte a) = _
  rw [GuestWrite.lastByteAt?_eq]
  cases (run.log.filter (·.Covers a)).getLast? <;> rfl

end Patch

end FramePatch
