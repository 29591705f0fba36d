import FramePatch.Guest.Recorded
import FramePatch.Proofs.Engine.Runs

/-!
# The stages of a frame

A frame that the gate lets through is a row of stages, each of which starts from the memory that the
one before it left: the built-in fixups, the code handler, and then, unless the session overrides
them, the patches and the active codes. Three of the stages are hooks, which may do anything to
memory, so what is said about them is which of them are called, in which order and on what.

- `CodeEngines.noted`: hooks that also note their calls. They do what they did before
  (`runStages_noted`, by induction on the stages).
- `hook?_hookCalls`: every hook among the stages is called, once for each time it is there.
- `frame_eq_runStages`: a frame runs its stages if the gate lets it and is nothing at all otherwise.
-/

namespace FramePatch

universe u v

/-! ## Calls of hooks -/

/-- The hooks that run against memory. -/
inductive MemoryHook where
  | fixedFunctions
  | codeHandler
  | activeCodes
deriving DecidableEq, Repr

/-- A call of a hook. One that runs against memory comes with the memory that it found and the
memory that it left. -/
inductive HookCall (μ : Type v) where
  | loadedCodes
  | activatedSynced
  | shutDown
  | ran (hook : MemoryHook) (before after : μ)

/-- The hook of a call, if it runs against memory. -/
def HookCall.hook? {μ : Type v} : HookCall μ → Option MemoryHook
  | ran hook _ _ => some hook
  | _ => none

namespace CodeEngines

variable {σ : Type u} {μ : Type v}

/-- Runs a hook. -/
def runHook (hooks : CodeEngines σ μ) : MemoryHook → σ → μ → σ × μ
  | .fixedFunctions => hooks.fixedFunctions
  | .codeHandler => hooks.codeHandler
  | .activeCodes => hooks.activeCodes

/-- Runs a hook and notes the call behind those noted so far. -/
def runNoted (hooks : CodeEngines σ μ) (hook : MemoryHook) (s : σ × List (HookCall μ)) (m : μ) :
    (σ × List (HookCall μ)) × μ :=
  let (codes, after) := hooks.runHook hook s.1 m
  ((codes, s.2 ++ [.ran hook m after]), after)

/-- The same hooks, each of which also notes its calls. -/
def noted (hooks : CodeEngines σ μ) : CodeEngines (σ × List (HookCall μ)) μ where
  loadCodes shipped user s := (hooks.loadCodes shipped user s.1, s.2 ++ [.loadedCodes])
  activateSynced s := (hooks.activateSynced s.1, s.2 ++ [.activatedSynced])
  fixedFunctions := hooks.runNoted .fixedFunctions
  codeHandler := hooks.runNoted .codeHandler
  activeCodes := hooks.runNoted .activeCodes
  shutdown s := (hooks.shutdown s.1, s.2 ++ [.shutDown])

theorem runHook_noted (hooks : CodeEngines σ μ) (hook : MemoryHook) :
    hooks.noted.runHook hook = hooks.runNoted hook := by
  cases hook <;> rfl

end CodeEngines

/-! ## Stages -/

/-- A stage of a frame. -/
inductive Stage where
  | hook (hook : MemoryHook)
  | patches
deriving DecidableEq, Repr

/-- The hook that a stage runs, if it runs one. -/
def Stage.hook? : Stage → Option MemoryHook
  | hook h => some h
  | patches => none

/-- The stages of a frame in a session, in their order. -/
def Session.stages (s : Session) : List Stage :=
  [.hook .fixedFunctions, .hook .codeHandler] ++
    if s.overrideActive then [] else [.patches, .hook .activeCodes]

section Stages

variable {σ : Type u} {μ : Type v} [GuestMemory μ]

/-- Runs a stage from a state of the code engines and a memory. -/
def runStage (hooks : CodeEngines σ μ) (patches : List Patch) (x : σ × μ) : Stage → σ × μ
  | .hook h => hooks.runHook h x.1 x.2
  | .patches => (x.1, Patch.applyAll patches x.2)

/-- Runs stages, each from what the one before it left. -/
def runStages (hooks : CodeEngines σ μ) (patches : List Patch) (stages : List Stage) (x : σ × μ) :
    σ × μ :=
  stages.foldl (runStage hooks patches) x

/-- The calls of hooks that a run of stages makes. -/
def hookCalls (hooks : CodeEngines σ μ) (patches : List Patch) :
    List Stage → σ × μ → List (HookCall μ)
  | [], _ => []
  | stage :: rest, x =>
    let after := runStage hooks patches x stage
    let calls := hookCalls hooks patches rest after
    match stage with
    | .hook h => .ran h x.2 after.2 :: calls
    | .patches => calls

/-- **Noting calls changes nothing** but the list of calls, which the calls of the stages extend. -/
theorem runStages_noted (hooks : CodeEngines σ μ) (patches : List Patch) (stages : List Stage)
    (codes : σ) (calls : List (HookCall μ)) (m : μ) :
    let ran := runStages hooks patches stages (codes, m)
    runStages hooks.noted patches stages ((codes, calls), m) =
      ((ran.1, calls ++ hookCalls hooks patches stages (codes, m)), ran.2) := by
  induction stages generalizing codes calls m with
  | nil => simp [runStages, hookCalls]
  | cons stage rest ih =>
    cases stage with
    | hook h =>
      -- the call is noted first, and the others after it
      let after := hooks.runHook h codes m
      have hstep : runStage hooks.noted patches ((codes, calls), m) (.hook h) =
          ((after.1, calls ++ [.ran h m after.2]), after.2) := by
        rw [runStage, CodeEngines.runHook_noted]
        rfl
      have hrest := ih after.1 (calls ++ [.ran h m after.2]) after.2
      show runStages hooks.noted patches rest
        (runStage hooks.noted patches ((codes, calls), m) (.hook h)) = _
      rw [hstep, hrest, List.append_assoc]
      rfl
    | patches => exact ih codes calls (Patch.applyAll patches m)

/-- **Each hook among the stages is called** once for each time it is there, and no other is. -/
theorem hook?_hookCalls (hooks : CodeEngines σ μ) (patches : List Patch) (stages : List Stage)
    (x : σ × μ) :
    (hookCalls hooks patches stages x).map HookCall.hook? =
      (stages.filterMap Stage.hook?).map some := by
  induction stages generalizing x with
  | nil => rfl
  | cons stage rest ih =>
    cases stage with
    | hook h => exact congrArg (some h :: ·) (ih _)
    | patches => exact ih _

end Stages

/-! ## Frames -/

namespace Engine

variable {σ : Type u} {μ : Type v} [GuestMemory μ]

/-- Memory is patched by the stages of the session. -/
theorem patchMemory_eq_runStages (hooks : CodeEngines σ μ) (e : Engine σ) (m : μ)
    (session : Session) :
    e.patchMemory hooks m session =
      let ran := runStages hooks e.patches session.stages (e.codes, m)
      ({ e with codes := ran.1 }, ran.2) := by
  unfold patchMemory Session.stages
  cases session.overrideActive <;> rfl

/-- A frame that the gate refuses is nothing at all. -/
theorem frame_of_refused (hooks : CodeEngines σ μ) (e : Engine σ) {cpu : Cpu} {m : μ}
    (h : Gate.isSafe cpu m = false) (session : Session) :
    e.frame hooks cpu m session = (e, m, false) := by
  rw [frame, h]
  rfl

/-- A frame that the gate lets through runs the stages of the session. -/
theorem frame_of_allowed (hooks : CodeEngines σ μ) (e : Engine σ) {cpu : Cpu} {m : μ}
    (h : Gate.isSafe cpu m = true) (session : Session) :
    e.frame hooks cpu m session =
      let ran := runStages hooks e.patches session.stages (e.codes, m)
      ({ e with codes := ran.1 }, ran.2, true) := by
  rw [frame, h, patchMemory_eq_runStages]
  rfl

/-- The engine, with a list of calls beside its code engines. -/
def noting (e : Engine σ) (calls : List (HookCall μ)) : Engine (σ × List (HookCall μ)) where
  patches := e.patches
  speedTable := e.speedTable
  codes := (e.codes, calls)

/-- The calls of hooks that a frame makes. -/
def frameCalls (hooks : CodeEngines σ μ) (e : Engine σ) (cpu : Cpu) (m : μ) (session : Session) :
    List (HookCall μ) :=
  if Gate.isSafe cpu m then hookCalls hooks e.patches session.stages (e.codes, m) else []

/-- A frame whose hooks note their calls is the same frame, with its calls noted. -/
theorem frame_noted (hooks : CodeEngines σ μ) (e : Engine σ) (calls : List (HookCall μ))
    (cpu : Cpu) (m : μ) (session : Session) :
    (e.noting calls).frame hooks.noted cpu m session =
      let r := e.frame hooks cpu m session
      (r.1.noting (calls ++ e.frameCalls hooks cpu m session), r.2) := by
  cases h : Gate.isSafe cpu m with
  | false =>
    have hcalls : e.frameCalls hooks cpu m session = [] := if_neg (Bool.eq_false_iff.1 h)
    rw [frame_of_refused hooks.noted _ h, frame_of_refused hooks e h, hcalls, List.append_nil]
  | true =>
    have hcalls : e.frameCalls hooks cpu m session =
        hookCalls hooks e.patches session.stages (e.codes, m) := if_pos h
    rw [frame_of_allowed hooks.noted _ h, frame_of_allowed hooks e h, hcalls]
    simp only [noting, runStages_noted]

/-- **One frame**, for hooks that do whatever they like. The answer is the verdict of the gate on
processor and memory as they were before the frame.

* If the gate lets the frame run, the code engines and memory are as the stages of the session leave
  them, one after the other; the hooks that are called are the built-in fixups, the code handler
  and, unless the session overrides them, the active codes, each of them once.
* If it does not, nothing is changed and no hook is called; where writes are recorded, none is.

Patches and speed table stay as they are in both cases. -/
theorem frame_eq_runStages (hooks : CodeEngines σ μ) (e : Engine σ) (cpu : Cpu) (m : μ)
    (session : Session) (calls : List (HookCall μ)) :
    let allowed := Gate.isSafe cpu m
    let r := e.frame hooks cpu m session
    r.2.2 = allowed ∧ r.1.patches = e.patches ∧ r.1.speedTable = e.speedTable ∧
      (r.1.codes, r.2.1) =
        (if allowed then runStages hooks e.patches session.stages (e.codes, m)
          else (e.codes, m)) ∧
      (∃ made, (e.noting calls).frame hooks.noted cpu m session =
          (r.1.noting (calls ++ made), r.2) ∧
        made = (if allowed then hookCalls hooks e.patches session.stages (e.codes, m) else []) ∧
        made.map HookCall.hook? =
          if allowed then
            [some .fixedFunctions, some .codeHandler] ++
              if session.overrideActive then [] else [some .activeCodes]
          else []) ∧
      ∀ (recording : CodeEngines σ (Recorded μ)) (log : List GuestWrite), allowed = false →
        (e.frame recording cpu ⟨m, log⟩ session).2.1 = ⟨m, log⟩ := by
  intro allowed r
  obtain ⟨hpatches, htable⟩ := e.frame_state hooks cpu m session
  have hnoted := e.frame_noted hooks calls cpu m session
  refine ⟨?_, hpatches, htable, ?_, ⟨_, hnoted, rfl, ?_⟩, ?_⟩
  · cases h : allowed with
    | false => exact congrArg (·.2.2) (e.frame_of_refused hooks h session)
    | true => exact congrArg (·.2.2) (e.frame_of_allowed hooks h session)
  · cases h : allowed with
    | false => exact congrArg (fun r => (r.1.codes, r.2.1)) (e.frame_of_refused hooks h session)
    | true => exact congrArg (fun r => (r.1.codes, r.2.1)) (e.frame_of_allowed hooks h session)
  · show (e.frameCalls hooks cpu m session).map HookCall.hook? = _
    unfold frameCalls
    cases h : Gate.isSafe cpu m with
    | false => simp [allowed, h]
    | true =>
      have hstages : (session.stages.filterMap Stage.hook?).map some =
          [some .fixedFunctions, some .codeHandler] ++
            if session.overrideActive then [] else [some .activeCodes] := by
        unfold Session.stages
        cases session.overrideActive <;> rfl
      simp [allowed, h, hook?_hookCalls, hstages]
  · intro recording log h
    -- the gate looks at the memory that the record is of
    have hrecorded : Gate.isSafe cpu (Recorded.mk m log) = false := h
    rw [frame_of_refused recording e hrecorded]

end Engine

end FramePatch
