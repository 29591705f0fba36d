import FramePatch.Engine.Script
import FramePatch.Proofs.Engine.Frames

/-!
# What patches have an influence on

Two engines whose code engines are in the same state, and whose patches and speed tables may differ
in any way, are given the same frame. A session that overrides the patches cannot be influenced by
them; any other session is influenced by the entries of the enabled patches and by nothing else
about the patches (`Patch.activeEntries`). Hooks may do anything to memory, but they are given
nothing of the patches beyond the memory that the stages before them leave. So it is enough to
compare the stages one by one (`runStages_congr`), and the frames of a run likewise
(`frames_congr`).

What is compared is all that a host can see of a frame (`FrameView`): hooks that note their calls
are hooks too, and a memory that records its writes is a memory.
-/

namespace FramePatch

universe u v

/-! ## Active entries -/

namespace Patch

/-- The entries that are applied: disabled patches and patches without entries are left out, and the
entries of the other ones are put together. -/
def activeEntries (ps : List Patch) : List Entry :=
  ((ps.filter (·.enabled)).filter (!·.entries.isEmpty)).flatMap (·.entries)

theorem activeEntries_eq (ps : List Patch) :
    activeEntries ps = (ps.filter (·.enabled)).flatMap (·.entries) := by
  rw [activeEntries]
  induction ps.filter (·.enabled) with
  | nil => rfl
  | cons p rest ih =>
    rw [List.filter_cons, List.flatMap_cons]
    cases h : p.entries with
    | nil => simpa [h] using ih
    | cons e es => simp [h, ih]

/-- Patches with the same active entries do the same to every memory. -/
theorem applyAll_congr {ps qs : List Patch} (h : activeEntries ps = activeEntries qs) {μ : Type v}
    [GuestMemory μ] (m : μ) : applyAll ps m = applyAll qs m := by
  rw [applyAll_eq_applyEntries, applyAll_eq_applyEntries, ← activeEntries_eq, ← activeEntries_eq, h]

/-- The name of a patch, its shipped state and where it comes from have no part in this. -/
theorem activeEntries_congr {ps qs : List Patch}
    (h : ps.map (fun p => (p.enabled, p.entries)) = qs.map fun p => (p.enabled, p.entries)) :
    activeEntries ps = activeEntries qs := by
  have hpairs (rs : List Patch) : activeEntries rs =
      ((rs.map fun p => (p.enabled, p.entries)).filter (·.1)).flatMap (·.2) := by
    rw [activeEntries_eq, List.filter_map, List.flatMap_map]
    rfl
  rw [hpairs, hpairs, h]

end Patch

/-- The session does not tell two lists of patches apart: it overrides the patches, or the same
entries are active. -/
def Session.Indistinguishable (s : Session) (ps qs : List Patch) : Prop :=
  s.overrideActive = true ∨ Patch.activeEntries ps = Patch.activeEntries qs

/-! ## Stages -/

section Stages

variable {σ : Type u} {μ : Type v} [GuestMemory μ]

theorem patches_mem_stages_iff (s : Session) : .patches ∈ s.stages ↔ s.overrideActive = false := by
  unfold Session.stages
  cases s.overrideActive <;> simp

theorem runStage_congr (hooks : CodeEngines σ μ) {ps qs : List Patch} {stage : Stage}
    (h : stage = .patches → Patch.activeEntries ps = Patch.activeEntries qs) (x : σ × μ) :
    runStage hooks ps x stage = runStage hooks qs x stage := by
  cases stage with
  | hook => rfl
  | patches => exact congrArg (Prod.mk x.1) (Patch.applyAll_congr (h rfl) x.2)

/-- **Stages** come to the same end, whichever of two lists of patches they run, if the same entries
are active; without a stage for patches they do so in any case. -/
theorem runStages_congr (hooks : CodeEngines σ μ) {ps qs : List Patch} {stages : List Stage}
    (h : .patches ∈ stages → Patch.activeEntries ps = Patch.activeEntries qs) (x : σ × μ) :
    runStages hooks ps stages x = runStages hooks qs stages x := by
  induction stages generalizing x with
  | nil => rfl
  | cons stage rest ih =>
    have hstage := runStage_congr hooks (fun hs => h (hs ▸ List.mem_cons_self)) x
    show runStages hooks ps rest (runStage hooks ps x stage) = _
    rw [hstage, ih fun hmem => h (List.mem_cons_of_mem stage hmem)]
    rfl

end Stages

/-! ## Frames -/

namespace Engine

variable {σ : Type u} {μ : Type v} [GuestMemory μ]

/-- **One frame** of two engines that the session does not tell apart. -/
theorem frame_congr (hooks : CodeEngines σ μ) {e f : Engine σ} (hcodes : e.codes = f.codes)
    {session : Session} (h : session.Indistinguishable e.patches f.patches) (cpu : Cpu) (m : μ) :
    (e.frame hooks cpu m session).1.codes = (f.frame hooks cpu m session).1.codes ∧
      (e.frame hooks cpu m session).2 = (f.frame hooks cpu m session).2 := by
  have hpatches : .patches ∈ session.stages →
      Patch.activeEntries e.patches = Patch.activeEntries f.patches := by
    intro hmem
    have hoverride := (patches_mem_stages_iff session).1 hmem
    exact h.resolve_left (Bool.eq_false_iff.1 hoverride)
  cases hsafe : Gate.isSafe cpu m with
  | false =>
    rw [frame_of_refused hooks e hsafe, frame_of_refused hooks f hsafe]
    exact ⟨hcodes, rfl⟩
  | true =>
    rw [frame_of_allowed hooks e hsafe, frame_of_allowed hooks f hsafe, ← hcodes,
      runStages_congr hooks hpatches]
    exact ⟨rfl, rfl⟩

/-- **Frame after frame** of two engines that none of the sessions tells apart: the same frames are
let through, and they leave the same memory and the same state of the code engines. -/
theorem frames_congr (hooks : CodeEngines σ μ) {e f : Engine σ} (hcodes : e.codes = f.codes)
    {calls : List FrameCall}
    (h : ∀ call ∈ calls, call.session.Indistinguishable e.patches f.patches) (m : μ) :
    (e.frames hooks m calls).1.codes = (f.frames hooks m calls).1.codes ∧
      (e.frames hooks m calls).2 = (f.frames hooks m calls).2 := by
  induction calls generalizing e f m with
  | nil => exact ⟨hcodes, rfl⟩
  | cons call rest ih =>
    obtain ⟨hafter, hanswer⟩ := frame_congr hooks hcodes (h call List.mem_cons_self) call.cpu m
    -- a frame leaves the patches as they are, so the engines are still not told apart
    have he := (e.frame_state hooks call.cpu m call.session).1
    have hf := (f.frame_state hooks call.cpu m call.session).1
    have hrest : ∀ c ∈ rest, c.session.Indistinguishable
        (e.frame hooks call.cpu m call.session).1.patches
        (f.frame hooks call.cpu m call.session).1.patches := by
      rw [he, hf]
      exact fun c hc => h c (List.mem_cons_of_mem call hc)
    obtain ⟨hlast, hanswers⟩ := ih hafter hrest (f.frame hooks call.cpu m call.session).2.1
    constructor
    · simp only [frames, hanswer, hlast]
    · simp only [frames, hanswer, hanswers]

/-! ## What a host can see -/

/-- What can be seen of a frame: whether the gate let it run, the writes to memory, the calls of
hooks with the memories that they found and left, and memory and code engines in the end. -/
structure FrameView (σ : Type u) (μ : Type v) where
  allowed : Bool
  writes : List GuestWrite
  calls : List (HookCall (Recorded μ))
  memory : μ
  codes : σ

/-- Runs a frame, with its writes and its calls of hooks noted. -/
def frameView (hooks : CodeEngines σ (Recorded μ)) (e : Engine σ) (cpu : Cpu) (m : μ)
    (session : Session) : FrameView σ μ :=
  let (e, r, allowed) := (e.noting []).frame hooks.noted cpu (Recorded.mk m []) session
  { allowed, writes := r.log, calls := e.codes.2, memory := r.memory, codes := e.codes.1 }

theorem frameView_congr (hooks : CodeEngines σ (Recorded μ)) {e f : Engine σ}
    (hcodes : e.codes = f.codes) {session : Session}
    (h : session.Indistinguishable e.patches f.patches) (cpu : Cpu) (m : μ) :
    e.frameView hooks cpu m session = f.frameView hooks cpu m session := by
  have hnoting : (e.noting (μ := Recorded μ) []).codes = (f.noting []).codes :=
    congrArg (·, []) hcodes
  obtain ⟨hafter, hanswer⟩ := frame_congr hooks.noted hnoting h cpu (Recorded.mk m [])
  simp only [frameView, hafter, hanswer]

/-- **Noninterference.** Nothing can be seen in a frame of how the patches of two engines differ, if
the session overrides the patches. In any session nothing can be seen of it if the same entries are
active, however they are spread over patches and whatever there is in patches that are disabled;
names, shipped states and origins never matter. The speed tables do not matter either. -/
theorem frameView_eq (hooks : CodeEngines σ (Recorded μ)) (e f : Engine σ)
    (hcodes : e.codes = f.codes) (cpu : Cpu) (m : μ) (session : Session) :
    let Unseen := e.frameView hooks cpu m session = f.frameView hooks cpu m session
    (session.overrideActive = true → Unseen) ∧
      (Patch.activeEntries e.patches = Patch.activeEntries f.patches → Unseen) ∧
      (e.patches.map (fun p => (p.enabled, p.entries)) =
        f.patches.map (fun p => (p.enabled, p.entries)) → Unseen) := by
  intro Unseen
  refine ⟨?_, ?_, ?_⟩
  · intro h
    exact frameView_congr hooks hcodes (.inl h) cpu m
  · intro h
    exact frameView_congr hooks hcodes (.inr h) cpu m
  · intro h
    exact frameView_congr hooks hcodes (.inr (Patch.activeEntries_congr h)) cpu m

/-! ## The same entries in other patches -/

/-- Code engines that write where patches write too, and read what patches leave. -/
def scripted : CodeEngines Script.Journal (Recorded ByteMemory) :=
  Script.engines { fixedFunctions := [.write .byte 0x3000 7], activeCodes := [.read 0x3000] }

/-- Three entries in two patches. The second entry takes place for what the code engines wrote. -/
def twoPatches : Engine Script.Journal where
  patches :=
    [{ name := ['A'], entries := [⟨0x3001, .byte, 1, false, 0⟩], enabled := true },
     { name := ['B'], enabled := true, userDefined := true,
       entries := [⟨0x3000, .word, 0x203, true, 0x701⟩, ⟨0x3002, .word, 0xAABB, false, 0⟩] }]
  codes := {}

/-- The same entries between patches that are off or empty, and a row in the speed table. -/
def fivePatches : Engine Script.Journal where
  patches :=
    [{ name := ['A'], entries := [⟨0x3000, .dword, 9, false, 0⟩], defaultEnabled := true },
     { name := ['C'], enabled := true, entries :=
         [⟨0x3001, .byte, 1, false, 0⟩, ⟨0x3000, .word, 0x203, true, 0x701⟩] },
     { name := ['D'], enabled := true, userDefined := true },
     { name := ['E'], enabled := true, entries := [⟨0x3002, .word, 0xAABB, false, 0⟩] },
     { name := ['F'], entries := [⟨0x3002, .byte, 9, false, 0⟩], userDefined := true }]
  speedTable := SpeedTable.empty.insert 0x1000 5
  codes := {}

/-- Both engines make the same frame, with all three entries; in a session that overrides them both
make the frame that an engine without patches makes, which is another one. -/
theorem frameView_fivePatches :
    let view (e : Engine Script.Journal) (session : Session) :=
      e.frameView scripted (.relocated 0x1000 0) stackMemory session
    let overriding : Session := { overrideActive := true }
    Patch.activeEntries fivePatches.patches = Patch.activeEntries twoPatches.patches ∧
      view fivePatches {} = view twoPatches {} ∧
      (view twoPatches {}).writes = [⟨.byte, 0x3000, 7⟩, ⟨.byte, 0x3001, 1⟩, ⟨.word, 0x3000, 0x203⟩,
        ⟨.word, 0x3002, 0xAABB⟩] ∧
      (view twoPatches {}).codes.events =
        [.ranFixedFunctions, .ranCodeHandler, .ranActiveCodes, .sawWord 0x3000 0x203AABB] ∧
      view fivePatches overriding = view (new {}) overriding ∧
      (view (new {}) overriding).writes = [⟨.byte, 0x3000, 7⟩] := by
  intro view overriding
  have hactive : Patch.activeEntries fivePatches.patches =
      Patch.activeEntries twoPatches.patches := by
    decide
  refine ⟨hactive, ?_, by rfl, by rfl, ?_, by rfl⟩
  · exact (frameView_eq scripted fivePatches twoPatches rfl _ stackMemory {}).2.1 hactive
  · exact (frameView_eq scripted fivePatches (new {}) rfl _ stackMemory overriding).1 rfl

end Engine

end FramePatch
