import FramePatch.Guest.Bytes
import FramePatch.Guest.Gate
import Mathlib.Data.Nat.Bitwise

/-!
# What the gate depends on

The gate follows a chain of reads whose addresses come from memory itself: the stack pointer leads
to the caller's frame, the frame to a return address, and that to an instruction. It still depends
on nothing that it has not validated. Each address is checked before anything is read there, so two
memories that answer alike at valid addresses get the same verdict, whatever they hold elsewhere.

- `isRelocated_eq`: of the machine state, two bits count.
- `isStackSane_iff`: everything that the stack has to satisfy.
- `Agree`: what two memories have to have in common.
- `verdict_of_agree`: the verdict depends on that and on nothing else, and what it promises.
-/

namespace FramePatch

universe u v

/-! ## The machine state -/

namespace Cpu

/-- Whether data addresses are relocated: bit 4 of the machine state. -/
def relocatesData (cpu : Cpu) : Bool := cpu.msr.toNat.testBit 4

/-- Whether instruction addresses are relocated: bit 5 of the machine state. -/
def relocatesInstructions (cpu : Cpu) : Bool := cpu.msr.toNat.testBit 5

/-- The mask of both relocation bits has these two bits and no other. -/
theorem testBit_relocation (i : Nat) : relocation.toNat.testBit i = (i == 4 || i == 5) := by
  have hsmall : ∀ i : Fin 6, relocation.toNat.testBit i = (i.val == 4 || i.val == 5) := by decide
  by_cases hi : i < 6
  · exact hsmall ⟨i, hi⟩
  · have hlarge : relocation.toNat < 2 ^ i :=
      Nat.lt_of_lt_of_le (by decide : relocation.toNat < 2 ^ 6)
        (Nat.pow_le_pow_right (by decide) (by omega))
    have h4 : i ≠ 4 := by omega
    have h5 : i ≠ 5 := by omega
    rw [Nat.testBit_lt_two_pow hlarge]
    simp [h4, h5]

/-- **Of the machine state** the two relocation bits count, and nothing else does. -/
theorem isRelocated_eq (cpu : Cpu) :
    cpu.isRelocated = (cpu.relocatesData && cpu.relocatesInstructions) := by
  have hbits : cpu.isRelocated = true ↔
      ∀ i, (cpu.msr.toNat.testBit i && (i == 4 || i == 5)) = (i == 4 || i == 5) := by
    simp only [isRelocated, beq_iff_eq, ← UInt32.toNat_inj, UInt32.toNat_and, ← testBit_relocation,
      ← Nat.testBit_and]
    exact ⟨fun h i => by rw [h], Nat.eq_of_testBit_eq⟩
  rw [Bool.eq_iff_iff, hbits, relocatesData, relocatesInstructions, Bool.and_eq_true]
  constructor
  · intro h
    exact ⟨by simpa using h 4, by simpa using h 5⟩
  · rintro ⟨h4, h5⟩ i
    by_cases hi : i = 4
    · simp [hi, h4]
    · by_cases hi' : i = 5
      · simp [hi', h5]
      · simp [hi, hi']

end Cpu

namespace Gate

variable {μ : Type u} {ν : Type v} [GuestMemory μ] [GuestMemory ν]

open GuestMemory

/-! ## The stack -/

/-- What the stack has to satisfy, in the order in which it is checked. -/
theorem isStackSane_iff {m : μ} {sp : UInt32} : isStackSane m sp = true ↔
    isRam m sp ∧ sp < read32 m sp ∧ isRam m (read32 m sp) ∧ isRam m (read32 m sp + 4) ∧
      isReturnAddress m (read32 m (read32 m sp + 4)) := by
  simp only [isStackSane, Bool.and_eq_true, decide_eq_true_eq, and_assoc]

/-- A stack is not sane if the chain of its frames does not lead upwards. -/
theorem isStackSane_of_le {m : μ} {sp : UInt32} (h : read32 m sp ≤ sp) :
    isStackSane m sp = false := by
  rw [Bool.eq_false_iff]
  intro hsane
  exact UInt32.not_lt.2 h (isStackSane_iff.1 hsane).2.1

/-- A state that is safe has relocation on and a sane stack. -/
theorem isSafe_iff {cpu : Cpu} {m : μ} : isSafe cpu m = true ↔
    (cpu.relocatesData ∧ cpu.relocatesInstructions) ∧ isStackSane m cpu.sp := by
  rw [isSafe, Cpu.isRelocated_eq, Bool.and_eq_true, Bool.and_eq_true]

/-! ## Memories that the gate cannot tell apart -/

/-- Two memories that agree on which addresses are valid, and on what is at the valid ones. -/
structure Agree (m : μ) (n : ν) : Prop where
  isRam : ∀ a, isRam m a = isRam n a
  isCode : ∀ a, isCode m a = isCode n a
  read32 : ∀ a, GuestMemory.isRam m a → read32 m a = read32 n a
  fetch : ∀ a, GuestMemory.isCode m a → fetch m a = fetch n a

namespace Agree

variable {m : μ} {n : ν}

theorem symm (h : Agree m n) : Agree n m where
  isRam a := (h.isRam a).symm
  isCode a := (h.isCode a).symm
  read32 a ha := (h.read32 a ((h.isRam a).trans ha)).symm
  fetch a ha := (h.fetch a ((h.isCode a).trans ha)).symm

/-- A return address leads to code in both memories, or in neither. -/
theorem isReturnAddress (h : Agree m n) {a : UInt32} (ha : isReturnAddress m a) :
    isReturnAddress n a := by
  simp only [Gate.isReturnAddress, Bool.and_eq_true] at ha ⊢
  exact ⟨(h.isCode a).symm.trans ha.1, h.fetch a ha.1 ▸ ha.2⟩

/-- Each address on the way is valid by the time it is read, so the way goes on alike. -/
theorem isStackSane (h : Agree m n) {sp : UInt32} (hm : isStackSane m sp) : isStackSane n sp := by
  obtain ⟨hsp, hup, hcaller, hslot, hreturn⟩ := isStackSane_iff.1 hm
  have hframe : GuestMemory.read32 m sp = GuestMemory.read32 n sp := h.read32 sp hsp
  rw [hframe] at hup hcaller hslot hreturn
  rw [h.read32 _ hslot] at hreturn
  rw [h.isRam] at hsp hcaller hslot
  exact isStackSane_iff.2 ⟨hsp, hup, hcaller, hslot, h.isReturnAddress hreturn⟩

/-- **The verdict on a stack** is the same in both memories. -/
theorem isStackSane_eq (h : Agree m n) (sp : UInt32) :
    Gate.isStackSane m sp = Gate.isStackSane n sp :=
  Bool.eq_iff_iff.2 ⟨h.isStackSane, h.symm.isStackSane⟩

end Agree

/-- **What the verdict depends on, and what it promises.**

* Memories that agree at valid addresses get the same verdict on every stack, and on every two
  processors that agree on the stack pointer and on the two relocation bits. The other bits of the
  machine state do not matter, nor does the program counter.
* No state passes with one of the two bits clear, in any memory.
* In a state that passes, the stack pointer leads to a frame strictly above it, and both the frame
  and the slot four bytes into it, counted round the end of memory, are valid. So no chain of frames
  passes that leads downwards or back to where it starts. -/
theorem verdict_of_agree (m : μ) (n : ν) :
    (Agree m n →
      (∀ sp, isStackSane m sp = isStackSane n sp) ∧
      ∀ cpu cpu' : Cpu, cpu.sp = cpu'.sp → cpu.relocatesData = cpu'.relocatesData →
        cpu.relocatesInstructions = cpu'.relocatesInstructions →
        isSafe cpu m = isSafe cpu' n) ∧
    (∀ cpu : Cpu, cpu.relocatesData = false ∨ cpu.relocatesInstructions = false →
      isSafe cpu m = false) ∧
    (∀ cpu : Cpu, isSafe cpu m = true → isStackSane m cpu.sp = true) ∧
    (∀ sp, isStackSane m sp = true →
      sp < read32 m sp ∧ isRam m (read32 m sp) ∧ isRam m (read32 m sp + 4)) ∧
    ∀ sp, read32 m sp ≤ sp →
      isStackSane m sp = false ∧ ∀ cpu : Cpu, cpu.sp = sp → isSafe cpu m = false := by
  refine ⟨fun h => ⟨h.isStackSane_eq, ?_⟩, ?_, ?_, ?_, ?_⟩
  · intro cpu cpu' hsp hdata hinstructions
    rw [isSafe, isSafe, Cpu.isRelocated_eq, Cpu.isRelocated_eq, hsp, hdata, hinstructions,
      h.isStackSane_eq]
  · intro cpu hclear
    rw [Bool.eq_false_iff]
    intro hsafe
    obtain ⟨⟨hdata, hinstructions⟩, -⟩ := isSafe_iff.1 hsafe
    rcases hclear with hclear | hclear
    · exact Bool.eq_false_iff.1 hclear hdata
    · exact Bool.eq_false_iff.1 hclear hinstructions
  · intro cpu hsafe
    exact (isSafe_iff.1 hsafe).2
  · intro sp hsane
    obtain ⟨-, hup, hcaller, hslot, -⟩ := isStackSane_iff.1 hsane
    exact ⟨hup, hcaller, hslot⟩
  · intro sp hdown
    refine ⟨isStackSane_of_le hdown, ?_⟩
    rintro cpu rfl
    rw [isSafe, isStackSane_of_le hdown, Bool.and_false]

/-! ## A stack at the end of memory -/

/-- A memory in which four words are valid. The caller's frame is two bytes before the end, so the
slot with the return address is at its beginning. -/
def wrappedStack : ByteMemory :=
  let blank : ByteMemory :=
    { byte := fun _ => 0, isRam := [0x1000, 0xFFFFFFFE, 0x2].contains, isCode := (· == 0x2000) }
  ((blank.storeWord .dword 0x1000 0xFFFFFFFE).storeWord .dword 0x2 0x2000).storeWord .dword 0x2000 1

/-- The stack at the end of memory passes, whatever is at an address that is not valid, and whatever
the machine state says beside the two bits. -/
theorem verdict_wrappedStack :
    let scribbled := wrappedStack.storeWord .dword 0x1004 0xFFFFFFFF
    let cpu : Cpu := { sp := 0x1000, msr := 0x30 }
    let cpu' : Cpu := { sp := 0x1000, pc := 0x7F, msr := 0xFFFF8FFF }
    Agree wrappedStack scribbled ∧ wrappedStack.byte 0x1004 ≠ scribbled.byte 0x1004 ∧
      isSafe cpu wrappedStack = true ∧ isSafe cpu' scribbled = true := by
  intro scribbled cpu cpu'
  have hagree : Agree wrappedStack scribbled := by
    refine ⟨fun _ => rfl, fun _ => rfl, fun a ha => ?_, fun a ha => ?_⟩
    · have hvalid : a = 0x1000 ∨ a = 0xFFFFFFFE ∨ a = 0x2 := by
        simpa [GuestMemory.isRam, wrappedStack, ByteMemory.storeWord, ByteMemory.store] using ha
      rcases hvalid with rfl | rfl | rfl <;> decide
    · obtain rfl : a = 0x2000 := by
        simpa [GuestMemory.isCode, wrappedStack, ByteMemory.storeWord, ByteMemory.store] using ha
      decide
  have hsafe : isSafe cpu wrappedStack = true := by decide
  have hsame := ((verdict_of_agree wrappedStack scribbled).1 hagree).2 cpu cpu' rfl (by decide)
    (by decide)
  exact ⟨hagree, by decide, hsafe, hsame.symm.trans hsafe⟩

end Gate

end FramePatch
