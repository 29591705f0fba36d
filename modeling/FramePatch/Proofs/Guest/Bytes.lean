import FramePatch.Guest.Bytes
import Mathlib.Data.List.Induction

/-!
# Words and their bytes

What an access of some width means in numbers. A width keeps the remainder of a word modulo a power
of 256 (`toNat_truncate`); the bytes of a word are its digits in base 256, the most significant one
first (`getElem?_toBytes`); and what is read at a width is the number that the bytes there denote
(`toNat_read`).
-/

namespace FramePatch

namespace Width

theorem toNat_truncate (w : Width) (v : UInt32) :
    (w.truncate v).toNat = v.toNat % Nat.pow 256 w.bytes := by
  have hv : v.toNat < 4294967296 := v.toNat_lt
  cases w with
  | byte => rfl
  | word => rfl
  | dword => exact (Nat.mod_eq_of_lt hv).symm

theorem toUInt8_shiftRight (v k : UInt32) :
    (v >>> k).toUInt8 = UInt8.ofNat (v.toNat / Nat.pow 2 (k.toNat % 32)) := by
  apply UInt8.toNat_inj.1
  rw [UInt32.toNat_toUInt8, UInt32.toNat_shiftRight, Nat.shiftRight_eq_div_pow]
  rfl

/-- **The bytes of a word** are its digits in base 256. -/
theorem getElem?_toBytes (w : Width) (v : UInt32) (i : Nat) :
    (w.toBytes v)[i]? =
      if i < w.bytes then some (UInt8.ofNat (v.toNat / Nat.pow 256 (w.bytes - 1 - i)))
      else none := by
  have hlast : v.toUInt8 = UInt8.ofNat (v.toNat / 1) := by
    apply UInt8.toNat_inj.1
    rw [Nat.div_one]
    rfl
  cases w with
  | byte =>
    match i with
    | 0 => exact congrArg some hlast
    | i + 1 => rfl
  | word =>
    match i with
    | 0 => exact congrArg some (toUInt8_shiftRight v 8)
    | 1 => exact congrArg some hlast
    | i + 2 => simp [toBytes, bytes]
  | dword =>
    match i with
    | 0 => exact congrArg some (toUInt8_shiftRight v 24)
    | 1 => exact congrArg some (toUInt8_shiftRight v 16)
    | 2 => exact congrArg some (toUInt8_shiftRight v 8)
    | 3 => exact congrArg some hlast
    | i + 4 => simp [toBytes, bytes]

end Width

theorem bigEndian_concat (bs : List UInt8) (b : UInt8) :
    bigEndian (bs ++ [b]) = 256 * bigEndian bs + b.toNat := by
  rw [bigEndian, List.foldl_append]
  rfl

theorem bigEndian_lt (bs : List UInt8) : bigEndian bs < Nat.pow 256 bs.length := by
  induction bs using List.reverseRecOn with
  | nil => exact Nat.one_pos
  | append_singleton bs b ih =>
    have hb : b.toNat < 256 := b.toNat_lt
    rw [bigEndian_concat, List.length_append, List.length_singleton]
    show 256 * bigEndian bs + b.toNat < Nat.pow 256 bs.length * 256
    omega

namespace ByteMemory

@[simp] theorem length_load (m : ByteMemory) (a : UInt32) (count : Nat) :
    (m.load a count).length = count := by
  simp [load]

theorem load_one (m : ByteMemory) (a : UInt32) : m.load a 1 = [m.byte a] := by
  simp [load]

/-- A read is cut from the word that the bytes give. -/
theorem read_eq_truncate (m : ByteMemory) (w : Width) (a : UInt32) :
    GuestMemory.read m w a = w.truncate (m.loadWord w a) := by
  cases w with
  | byte =>
    show (m.byte a).toUInt32 = (UInt32.ofNat (bigEndian (m.load a 1))).toUInt8.toUInt32
    rw [load_one]
    simp [bigEndian]
  | word => rfl
  | dword => rfl

/-- **What is read** is the number that the bytes denote. -/
theorem toNat_read (m : ByteMemory) (w : Width) (a : UInt32) :
    (GuestMemory.read m w a).toNat = bigEndian (m.load a w.bytes) := by
  have hbytes := bigEndian_lt (m.load a w.bytes)
  rw [length_load] at hbytes
  have hword : Nat.pow 256 w.bytes ≤ UInt32.size := by cases w <;> decide
  rw [read_eq_truncate, Width.toNat_truncate, loadWord, UInt32.toNat_ofNat_of_lt' (by omega),
    Nat.mod_eq_of_lt hbytes]

end ByteMemory

end FramePatch
