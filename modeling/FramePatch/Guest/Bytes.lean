import FramePatch.Guest.Memory

/-!
# Byte memories

A memory with a byte at each of the 2³² addresses. Wider accesses are big-endian, need no
alignment, and run on from the last address to the first. Every address can be read and written,
whatever the two predicates on addresses say.

* `byte_store`: after a store, an address inside its window holds the byte stored there, and any
  other address holds what it held.
-/

namespace FramePatch

/-- The number that bytes denote, the first one being the most significant. -/
def bigEndian (bs : List UInt8) : Nat := bs.foldl (fun n b => 256 * n + b.toNat) 0

/-- The bytes of a word at a width, the most significant one first. -/
def Width.toBytes : Width → UInt32 → List UInt8
  | byte, v => [v.toUInt8]
  | word, v => [(v >>> 8).toUInt8, v.toUInt8]
  | dword, v => [(v >>> 24).toUInt8, (v >>> 16).toUInt8, (v >>> 8).toUInt8, v.toUInt8]

@[simp] theorem Width.length_toBytes (w : Width) (v : UInt32) :
    (w.toBytes v).length = w.bytes := by
  cases w <;> rfl

/-- A memory of 2³² bytes. -/
structure ByteMemory where
  byte : UInt32 → UInt8
  isRam : UInt32 → Bool
  isCode : UInt32 → Bool
  /-- The instruction words, where fetching is kept apart from reading. -/
  instruction? : Option (UInt32 → UInt32) := none

namespace ByteMemory

/-- The bytes from an address on. -/
def load (m : ByteMemory) (a : UInt32) (count : Nat) : List UInt8 :=
  (List.range count).map fun i => m.byte (a + UInt32.ofNat i)

/-- The memory with bytes stored from an address on. -/
def store (m : ByteMemory) (a : UInt32) (bs : List UInt8) : ByteMemory :=
  { m with byte := fun b => bs.getD (b - a).toNat (m.byte b) }

theorem byte_store (m : ByteMemory) (a b : UInt32) (bs : List UInt8) :
    (m.store a bs).byte b =
      if h : (b - a).toNat < bs.length then bs[(b - a).toNat] else m.byte b := by
  simp only [store, List.getD_eq_getElem?_getD]
  split
  · next h => simp [List.getElem?_eq_getElem h]
  · next h => simp [List.getElem?_eq_none (Nat.not_lt.1 h)]

/-- The word of a width at an address. -/
def loadWord (m : ByteMemory) (w : Width) (a : UInt32) : UInt32 :=
  UInt32.ofNat (bigEndian (m.load a w.bytes))

/-- The memory with a word of a width stored at an address. -/
def storeWord (m : ByteMemory) (w : Width) (a v : UInt32) : ByteMemory := m.store a (w.toBytes v)

instance : GuestMemory ByteMemory where
  read8 m a := m.byte a
  read16 m a := (m.loadWord .word a).toUInt16
  read32 m a := m.loadWord .dword a
  write8 m a v := m.storeWord .byte a v.toUInt32
  write16 m a v := m.storeWord .word a v.toUInt32
  write32 m a v := m.storeWord .dword a v
  isRam := isRam
  isCode := isCode
  fetch m := m.instruction?.getD (m.loadWord .dword)

end ByteMemory

end FramePatch
