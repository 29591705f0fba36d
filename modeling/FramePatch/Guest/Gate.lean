import FramePatch.Guest.Memory

/-!
# The safety gate

Patches are applied from a video interrupt, so the processor may be anywhere, also in an exception
handler with half a stack. No test tells these states apart for certain. The gate passes a state
only if it looks like ordinary code with a caller: relocation is on for data and instructions,
and one step up the chain of stack frames leads to a return address at which there is code.
-/

namespace FramePatch

universe u

/-- The processor registers that the gate consults. -/
structure Cpu where
  /-- The stack pointer. -/
  sp : UInt32
  /-- The program counter. -/
  pc : UInt32 := 0
  /-- The machine state register. -/
  msr : UInt32

namespace Cpu

/-- The bit that turns on relocation of data addresses. -/
def dataRelocation : UInt32 := 0x10

/-- The bit that turns on relocation of instruction addresses. -/
def instructionRelocation : UInt32 := 0x20

/-- Both relocation bits. -/
def relocation : UInt32 := dataRelocation ||| instructionRelocation

/-- The registers of a processor with relocation on and no other bit of its state set. -/
def relocated (sp pc : UInt32) : Cpu := { sp, pc, msr := relocation }

/-- Whether relocation is on for both kinds of address. -/
def isRelocated (cpu : Cpu) : Bool := cpu.msr &&& relocation == relocation

end Cpu

namespace Gate

variable {μ : Type u} [GuestMemory μ]

open GuestMemory

/-- Whether a return address leads to code. -/
def isReturnAddress (m : μ) (a : UInt32) : Bool := isCode m a && fetch m a != 0

/-- Whether `sp` points at a frame whose caller's frame lies above it and saves a return address
that leads to code. -/
def isStackSane (m : μ) (sp : UInt32) : Bool :=
  let callerFrame := read32 m sp
  let returnSlot := callerFrame + 4
  isRam m sp && decide (sp < callerFrame) && isRam m callerFrame && isRam m returnSlot &&
    isReturnAddress m (read32 m returnSlot)

/-- Whether memory may be patched in a state. -/
def isSafe (cpu : Cpu) (m : μ) : Bool := cpu.isRelocated && isStackSane m cpu.sp

end Gate

end FramePatch
