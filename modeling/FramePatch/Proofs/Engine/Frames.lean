import FramePatch.Proofs.Engine.Stages
import FramePatch.Proofs.Patch.Writes

/-!
# Frame after frame

Patches are applied every frame, to a memory that already has what the frame before it wrote. For
entries without a condition this changes nothing: they make the same writes every time, and the same
writes made again leave every byte as it is (`applyAll_applyAll`). So however many frames are run,
and whichever of them the gate lets through, memory is as it was or as one application leaves it
(`memory_frames`). The gate may well answer differently once patches have written to the stack that
it looks at; that decides which frames apply the patches, and not what they leave.
-/

namespace FramePatch

universe u v

/-! ## Unconditional entries -/

/-- An entry without a condition makes its write. -/
theorem Entry.apply_of_unconditional {μ : Type v} [GuestMemory μ] {e : Entry}
    (h : e.conditional = false) (m : μ) : e.apply m = e.toWrite.perform m := by
  have hholds : e.holds m = true := by
    rw [holds, h]
    rfl
  rw [apply, if_pos hholds, toWrite, GuestWrite.perform, GuestMemory.write_truncate]

namespace Patch

/-- The patches that are enabled have no conditional entries. -/
def Unconditional (ps : List Patch) : Prop :=
  ∀ p ∈ ps, p.enabled → ∀ e ∈ p.entries, e.conditional = false

/-- Entries without conditions make their writes, one after another. -/
theorem applyEntries_eq_replay {μ : Type v} [GuestMemory μ] {es : List Entry}
    (h : ∀ e ∈ es, e.conditional = false) (m : μ) :
    applyEntries es m = GuestWrite.replay (es.map Entry.toWrite) m := by
  induction es generalizing m with
  | nil => rfl
  | cons e rest ih =>
    have hhead : e.apply m = e.toWrite.perform m :=
      e.apply_of_unconditional (h e List.mem_cons_self) m
    have hrest := ih (fun f hf => h f (List.mem_cons_of_mem e hf)) (e.apply m)
    show applyEntries rest (e.apply m) = _
    rw [hrest, hhead]
    rfl

/-- **Applying patches again** changes nothing, if they have no conditional entries. -/
theorem applyAll_applyAll {ps : List Patch} (h : Unconditional ps) (m : ByteMemory) :
    applyAll ps (applyAll ps m) = applyAll ps m := by
  have hentries : ∀ e ∈ (ps.filter (·.enabled)).flatMap (·.entries), e.conditional = false := by
    intro e he
    obtain ⟨p, hp, hep⟩ := List.mem_flatMap.1 he
    obtain ⟨hmem, henabled⟩ := List.mem_filter.1 hp
    exact h p hmem henabled e hep
  simp only [applyAll_eq_applyEntries, applyEntries_eq_replay hentries]
  exact ByteMemory.replay_replay _ m

end Patch

/-! ## Frames -/

/-- What a frame is given: the processor as it is at the moment, and what the session asks. -/
structure FrameCall where
  cpu : Cpu
  session : Session

namespace Engine

section Runs

variable {σ : Type u} {μ : Type v} [GuestMemory μ]

/-- Runs frames on one memory, one after another. The answers say which of them the gate let run. -/
def frames (hooks : CodeEngines σ μ) (e : Engine σ) (m : μ) :
    List FrameCall → Engine σ × μ × List Bool
  | [] => (e, m, [])
  | call :: rest =>
    let (e, m, allowed) := e.frame hooks call.cpu m call.session
    let (e, m, answers) := e.frames hooks m rest
    (e, m, allowed :: answers)

/-- Whether a frame applied the patches: the gate let it, and the session did not suppress them. -/
def applied (f : FrameCall × Bool) : Bool := f.2 && !f.1.session.overrideActive

/-- **One frame** without code engines applies the patches or does nothing. -/
theorem frame_none (e : Engine Unit) (cpu : Cpu) (m : μ) (session : Session) :
    let allowed := Gate.isSafe cpu m
    e.frame .none cpu m session =
      (e, if applied (⟨cpu, session⟩, allowed) then Patch.applyAll e.patches m else m,
        allowed) := by
  intro allowed
  cases h : allowed with
  | false =>
    rw [frame_of_refused .none e h]
    rfl
  | true =>
    rw [frame_of_allowed .none e h]
    unfold applied Session.stages
    cases session.overrideActive <;> rfl

end Runs

/-- **Frame after frame** without code engines, on a memory that nothing else writes to. If no
enabled patch has a conditional entry, memory is left as it was, unless the gate let a frame run
whose session does not suppress patches; then it is left as the patches leave it when they are
applied once. How many such frames there are does not matter, nor what the patches do to each other
or to what the gate looks at. -/
theorem memory_frames (e : Engine Unit) (h : Patch.Unconditional e.patches) (m : ByteMemory)
    (calls : List FrameCall) :
    let r := e.frames .none m calls
    r.1 = e ∧ r.2.2.length = calls.length ∧
      r.2.1 = if (calls.zip r.2.2).any applied then Patch.applyAll e.patches m else m := by
  induction calls generalizing m with
  | nil => exact ⟨rfl, rfl, rfl⟩
  | cons call rest ih =>
    intro r
    let allowed := Gate.isSafe call.cpu m
    let after := if applied (call, allowed) then Patch.applyAll e.patches m else m
    obtain ⟨hengine, hlength, hmemory⟩ := ih after
    have hr : r = ((e.frames .none after rest).1, (e.frames .none after rest).2.1,
        allowed :: (e.frames .none after rest).2.2) := by
      show e.frames .none m (call :: rest) = _
      rw [frames, frame_none]
    rw [hr]
    refine ⟨hengine, congrArg (· + 1) hlength, ?_⟩
    show (e.frames .none after rest).2.1 = _
    rw [hmemory, List.zip_cons_cons, List.any_cons]
    -- the patches are applied by this frame, by a later one, by both or by none
    cases hfirst : applied (call, allowed) with
    | false => simp only [after, hfirst, Bool.false_or, Bool.false_eq_true, if_false]
    | true =>
      simp only [after, hfirst, Bool.true_or, if_true, Patch.applyAll_applyAll h, ite_self]

/-! ## Patches that overlap -/

/-- A memory with a sane stack at `0x1000`. -/
def stackMemory : ByteMemory :=
  let zero : ByteMemory := { byte := fun _ => 0, isRam := fun _ => true, isCode := fun _ => true }
  ((zero.storeWord .dword 0x1000 0x1010).storeWord .dword 0x1014 0x2000).storeWord .dword 0x2000 1

/-- An engine with patches that overlap, one of them over the end of memory, and one of which also
writes to that stack. The patch between them is off. -/
def overlapping : Engine Unit where
  patches :=
    [{ name := ['A'], entries := [⟨0xFFFFFFFE, .dword, 0x11223344, false, 0⟩], enabled := true },
     { name := ['B'], entries := [⟨0, .byte, 0x55, true, 0x66⟩] },
     { name := ['C'], entries := [⟨0, .word, 0xAABB, false, 0⟩, ⟨0x1002, .word, 0, false, 0⟩],
       enabled := true }]
  codes := ()

/-- Three frames at that stack, the first of them in a session that suppresses patches. -/
def threeFrames : List FrameCall :=
  [⟨.relocated 0x1000 0, { overrideActive := true }⟩, ⟨.relocated 0x1000 0, {}⟩,
   ⟨.relocated 0x1000 0, {}⟩]

/-- The first frame is suppressed, the second one applies the patches, and the third one is refused
for what they did to the stack. -/
theorem memory_frames_overlapping :
    let r := overlapping.frames .none stackMemory threeFrames
    Patch.Unconditional overlapping.patches ∧ r.2.2 = [true, true, false] ∧
      r.2.1 = Patch.applyAll overlapping.patches stackMemory ∧
      r.2.1.load 0xFFFFFFFE 5 = [0x11, 0x22, 0xAA, 0xBB, 0] := by
  intro r
  have hunconditional : Patch.Unconditional overlapping.patches := by
    unfold Patch.Unconditional
    decide
  have hanswers : r.2.2 = [true, true, false] := by rfl
  have hmemory : r.2.1 = _ := (memory_frames overlapping hunconditional stackMemory threeFrames).2.2
  rw [hanswers] at hmemory
  refine ⟨hunconditional, hanswers, hmemory, ?_⟩
  rw [hmemory]
  rfl

end Engine

end FramePatch
