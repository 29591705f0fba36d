import FramePatch.Entry.Basic

/-!
# Guest memory

The memory of the guest, at the addresses that its processor uses at the moment. Memory
is a value: a write gives the memory after it. Accesses of the three widths are separate
operations, since a host need not answer them consistently; everything that holds of patches for
all hosts is stated over this class, and what needs bytes is stated over `ByteMemory`.
-/

namespace FramePatch

universe u

/-- A type of guest memories. -/
class GuestMemory (μ : Type u) where
  read8 : μ → UInt32 → UInt8
  read16 : μ → UInt32 → UInt16
  read32 : μ → UInt32 → UInt32
  write8 : μ → UInt32 → UInt8 → μ
  write16 : μ → UInt32 → UInt16 → μ
  write32 : μ → UInt32 → UInt32 → μ
  /-- Whether an address is backed by memory for data accesses. -/
  isRam : μ → UInt32 → Bool
  /-- Whether an address is backed by memory for instruction fetches. -/
  isCode : μ → UInt32 → Bool
  /-- The instruction at an address; the word read there, unless the host tells them apart. -/
  fetch : μ → UInt32 → UInt32 := read32

namespace GuestMemory

variable {μ : Type u} [GuestMemory μ]

/-- The value at an address, read at a width. -/
def read (m : μ) : Width → UInt32 → UInt32
  | .byte, a => (read8 m a).toUInt32
  | .word, a => (read16 m a).toUInt32
  | .dword, a => read32 m a

/-- The memory after the low bits of a value are written at a width. -/
def write (m : μ) : Width → UInt32 → UInt32 → μ
  | .byte, a, v => write8 m a v.toUInt8
  | .word, a, v => write16 m a v.toUInt16
  | .dword, a, v => write32 m a v

/-- A write sees only the part of its value that its width covers. -/
@[simp] theorem write_truncate (m : μ) (w : Width) (a v : UInt32) :
    write m w a (w.truncate v) = write m w a v := by
  cases w <;> simp only [write, Width.truncate, UInt8.toUInt8_toUInt32, UInt16.toUInt16_toUInt32]

end GuestMemory

end FramePatch
