import FramePatch.Guest.Memory
import FramePatch.Patch.Basic

/-!
# Applying patches

Patches are applied in their order, and the entries of a patch in theirs, so a later entry sees
what earlier ones wrote. A conditional entry compares at its own width, with a comparand cut to
that width.
-/

namespace FramePatch

universe u

variable {μ : Type u} [GuestMemory μ]

/-- Whether an entry takes place in a memory. -/
def Entry.holds (e : Entry) (m : μ) : Bool :=
  !e.conditional || GuestMemory.read m e.width e.address == e.width.truncate e.comparand

/-- The memory after an entry. -/
def Entry.apply (e : Entry) (m : μ) : μ :=
  if e.holds m then GuestMemory.write m e.width e.address e.value else m

namespace Patch

/-- The memory after a list of entries, in their order. -/
def applyEntries (entries : List Entry) (m : μ) : μ := entries.foldl (fun m e => e.apply m) m

/-- The memory after the enabled ones of a list of patches, in their order. -/
def applyAll (patches : List Patch) (m : μ) : μ :=
  (patches.filter (·.enabled)).foldl (fun m p => applyEntries p.entries m) m

/-- Applying patches is applying the entries of the enabled ones, one after another. -/
theorem applyAll_eq_applyEntries (patches : List Patch) (m : μ) :
    applyAll patches m = applyEntries ((patches.filter (·.enabled)).flatMap (·.entries)) m := by
  simp only [applyAll, applyEntries]
  induction patches.filter (·.enabled) generalizing m with
  | nil => rfl
  | cons p ps ih => simp [ih]

end Patch

end FramePatch
