import FramePatch.Guest.Memory

/-!
# Recorded memories

A memory together with the list of the writes that reached it. Reads and the predicates on
addresses pass through; a write is noted with its width and with the part of its value that the
width covers, after the writes before it.
-/

namespace FramePatch

universe u

/-- One write to guest memory. -/
structure GuestWrite where
  width : Width
  address : UInt32
  value : UInt32
deriving DecidableEq, Repr

/-- A memory and the writes made so far. -/
structure Recorded (μ : Type u) where
  memory : μ
  log : List GuestWrite := []

namespace Recorded

variable {μ : Type u} [GuestMemory μ]

/-- Performs a write and notes it. -/
def record (r : Recorded μ) (width : Width) (address value : UInt32) : Recorded μ where
  memory := GuestMemory.write r.memory width address value
  log := r.log ++ [⟨width, address, value⟩]

instance : GuestMemory (Recorded μ) where
  read8 r a := GuestMemory.read8 r.memory a
  read16 r a := GuestMemory.read16 r.memory a
  read32 r a := GuestMemory.read32 r.memory a
  write8 r a v := r.record .byte a v.toUInt32
  write16 r a v := r.record .word a v.toUInt32
  write32 r a v := r.record .dword a v
  isRam r a := GuestMemory.isRam r.memory a
  isCode r a := GuestMemory.isCode r.memory a
  fetch r a := GuestMemory.fetch r.memory a

@[simp] theorem read_eq (r : Recorded μ) (w : Width) (a : UInt32) :
    GuestMemory.read r w a = GuestMemory.read r.memory w a := by
  cases w <;> rfl

theorem write_eq (r : Recorded μ) (w : Width) (a v : UInt32) :
    GuestMemory.write r w a v = r.record w a (w.truncate v) := by
  cases w <;> rfl

@[simp] theorem memory_write (r : Recorded μ) (w : Width) (a v : UInt32) :
    (GuestMemory.write r w a v).memory = GuestMemory.write r.memory w a v := by
  simp [write_eq, record]

@[simp] theorem log_write (r : Recorded μ) (w : Width) (a v : UInt32) :
    (GuestMemory.write r w a v).log = r.log ++ [⟨w, a, w.truncate v⟩] := by
  simp [write_eq, record]

end Recorded

end FramePatch
