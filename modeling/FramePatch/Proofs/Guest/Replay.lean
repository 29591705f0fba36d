import FramePatch.Guest.Recorded
import FramePatch.Proofs.Guest.Bytes

/-!
# Replaying writes

Writes made again on a memory, one after another. On a byte memory the outcome is decided byte by
byte: an address holds what the last write that covers it puts there, and what it held before if
there is none (`replay_eq`). Which byte that is has nothing to do with the memory, although writes
of different widths may overlap in any way and run on over the last address; so replaying the same
writes a second time changes nothing (`replay_replay`). In numbers, the byte is a digit of the last
write to cover the address (`lastByteAt?_eq`).
-/

namespace FramePatch

universe u

namespace GuestWrite

/-- Makes a write. -/
def perform {μ : Type u} [GuestMemory μ] (m : μ) (w : GuestWrite) : μ :=
  GuestMemory.write m w.width w.address w.value

/-- The byte that a write puts at an address, if it covers the address. -/
def byteAt? (w : GuestWrite) (a : UInt32) : Option UInt8 :=
  (w.width.toBytes (w.width.truncate w.value))[(a - w.address).toNat]?

/-- The byte that the last of some writes to cover an address puts there. -/
def lastByteAt? (writes : List GuestWrite) (a : UInt32) : Option UInt8 :=
  (writes.filterMap (·.byteAt? a)).getLast?

theorem lastByteAt?_append (writes more : List GuestWrite) (a : UInt32) :
    lastByteAt? (writes ++ more) a = (lastByteAt? more a).or (lastByteAt? writes a) := by
  rw [lastByteAt?, List.filterMap_append, List.getLast?_append]
  rfl

theorem lastByteAt?_singleton (w : GuestWrite) (a : UInt32) : lastByteAt? [w] a = w.byteAt? a := by
  cases h : w.byteAt? a <;> simp [lastByteAt?, h]

/-- Makes writes, one after another. -/
def replay {μ : Type u} [GuestMemory μ] (writes : List GuestWrite) (m : μ) : μ :=
  writes.foldl perform m

end GuestWrite

namespace ByteMemory

/-- A write stores the bytes of the part of its value that it sees. -/
theorem write_eq_store (m : ByteMemory) (w : Width) (a v : UInt32) :
    GuestMemory.write m w a v = m.store a (w.toBytes (w.truncate v)) := by
  cases w <;> rfl

/-- One write changes the bytes that it covers. -/
theorem perform_eq (m : ByteMemory) (w : GuestWrite) :
    w.perform m = { m with byte := fun a => (w.byteAt? a).getD (m.byte a) } := by
  rw [GuestWrite.perform, write_eq_store, store]
  simp only [GuestWrite.byteAt?, List.getD_eq_getElem?_getD]

/-- **Replayed writes**, byte by byte: the last write that covers an address decides. -/
theorem replay_eq (writes : List GuestWrite) (m : ByteMemory) :
    GuestWrite.replay writes m =
      { m with byte := fun a => (GuestWrite.lastByteAt? writes a).getD (m.byte a) } := by
  -- the last write comes off first, as it is the one that decides
  induction writes using List.reverseRecOn with
  | nil => rfl
  | append_singleton writes w ih =>
    have hlast : GuestWrite.replay (writes ++ [w]) m = w.perform (GuestWrite.replay writes m) := by
      simp [GuestWrite.replay]
    rw [hlast, ih, perform_eq]
    congr 1
    funext a
    rw [GuestWrite.lastByteAt?_append, GuestWrite.lastByteAt?_singleton]
    cases w.byteAt? a <;> rfl

/-- Replaying the same writes again changes nothing. -/
theorem replay_replay (writes : List GuestWrite) (m : ByteMemory) :
    GuestWrite.replay writes (GuestWrite.replay writes m) = GuestWrite.replay writes m := by
  simp only [replay_eq]
  congr 1
  funext a
  cases GuestWrite.lastByteAt? writes a <;> rfl

end ByteMemory

/-! ## Bytes in numbers -/

namespace GuestWrite

/-- Whether a write reaches an address: the address is not as far behind the one that is written to
as the width, counted round the end of memory. -/
def Covers (w : GuestWrite) (a : UInt32) : Prop := (a - w.address).toNat < w.width.bytes

instance (w : GuestWrite) (a : UInt32) : Decidable (w.Covers a) :=
  inferInstanceAs (Decidable (_ < _))

/-- The digit of the value that is written, in base 256, for an address that the write covers. -/
def digitAt (w : GuestWrite) (a : UInt32) : UInt8 :=
  UInt8.ofNat ((w.width.truncate w.value).toNat /
    Nat.pow 256 (w.width.bytes - 1 - (a - w.address).toNat))

theorem byteAt?_eq (w : GuestWrite) (a : UInt32) :
    w.byteAt? a = if w.Covers a then some (w.digitAt a) else none :=
  Width.getElem?_toBytes _ _ _

/-- **The last write to cover an address** puts a digit of its value there. -/
theorem lastByteAt?_eq (writes : List GuestWrite) (a : UInt32) :
    lastByteAt? writes a = (writes.filter (·.Covers a)).getLast?.map (·.digitAt a) := by
  rw [lastByteAt?, ← List.getLast?_map]
  congr 1
  induction writes with
  | nil => rfl
  | cons w rest ih =>
    rw [List.filterMap_cons, List.filter_cons, byteAt?_eq, ih]
    by_cases h : w.Covers a <;> simp [h]

end GuestWrite

end FramePatch
