import FramePatch.Engine.Files
import FramePatch.Proofs.Patch.Toggles
import Mathlib.Data.List.DropRight

/-!
# Runs of the engine

A run is any sequence of calls to one engine, on files of any system. What an engine holds after a
run depends on two things alone: the sources of the last load that succeeded, unless a shutdown came
after it (`lastSources?`), and the toggles since then (`togglesSince`). Everything else leaves no
trace in the patches and the speed table, be it a frame, a save, or whatever was loaded and toggled
before.

- `step_of_startsAnew`, `step_of_not_startsAnew`: what one call does to patches and speed table. It
  either builds them anew or toggles patches.
- `run_state`: what a run has done to them, by induction on the calls.
- `run_eq_last_load`: the same, said of a new engine, with the answers to toggles and to loads that
  fail.
-/

namespace FramePatch

universe u v w

/-! ## Calls -/

/-- A call to an engine. Files and memory may change between two calls, so each call comes with
those that it works on. -/
inductive Call (φ : Type w) (μ : Type v) where
  | load (shipped user : Source) (session : Session)
  | reload (shipped user : Source) (session : Session)
  | loadFiles (s : φ) (paths : ConfigPaths) (session : Session)
  | shutdown
  | setEnabled (name : Text) (enabled : Bool)
  | frame (cpu : Cpu) (m : μ) (session : Session)
  | save
  | persist (s : φ) (path : Text)
  | cycles (address : UInt32)

/-- What a call answers, beside the engine after it. -/
inductive Answer (φ : Type w) (μ : Type v) where
  | none
  | loaded (result : Except FileError Unit)
  | found (found : Bool)
  | patched (m : μ) (allowed : Bool)
  | lines (lines : Patch.SectionLines)
  | persisted (s : φ) (result : Except FileError Unit)
  | cycles (cycles : UInt32)

namespace Call

variable {φ : Type w} [FileSystem φ] {μ : Type v}

/-- The sources of a load that succeeds. -/
def sources? : Call φ μ → Option (Source × Source)
  | load shipped user _ => some (shipped, user)
  | reload shipped user _ => some (shipped, user)
  | loadFiles s paths _ =>
    match paths.read s with
    | .ok (shipped, user) => some (shipped.toSource, user.toSource)
    | .error _ => Option.none
  | _ => Option.none

/-- Whether a call drops what was there before: a load that succeeds, or a shutdown. -/
def startsAnew : Call φ μ → Bool
  | shutdown => true
  | call => call.sources?.isSome

/-- The name and the state that a toggle is given. -/
def toggle? : Call φ μ → Option (Text × Bool)
  | setEnabled name enabled => some (name, enabled)
  | _ => Option.none

end Call

namespace Engine

variable {σ : Type u} {φ : Type w} [FileSystem φ] {μ : Type v} [GuestMemory μ]

/-- The engine after a call, and what the call answers. -/
def answer (hooks : CodeEngines σ μ) (e : Engine σ) : Call φ μ → Engine σ × Answer φ μ
  | .load shipped user session => (e.load hooks shipped user session, .none)
  | .reload shipped user session => (e.reload hooks shipped user session, .none)
  | .loadFiles s paths session =>
    let (e, result) := e.loadFiles hooks s paths session
    (e, .loaded result)
  | .shutdown => (e.shutdown hooks, .none)
  | .setEnabled name enabled =>
    let (e, found) := e.setEnabled name enabled
    (e, .found found)
  | .frame cpu m session =>
    let (e, m, allowed) := e.frame hooks cpu m session
    (e, .patched m allowed)
  | .save => (e, .lines e.save)
  | .persist s path =>
    let (after, result) := e.persist s path
    (e, .persisted after result)
  | .cycles address => (e, .cycles (e.cycles address))

/-- The engine after a call. -/
def step (hooks : CodeEngines σ μ) (e : Engine σ) (call : Call φ μ) : Engine σ :=
  (e.answer hooks call).1

/-- The engine after a run of calls. -/
def run (hooks : CodeEngines σ μ) (e : Engine σ) (calls : List (Call φ μ)) : Engine σ :=
  calls.foldl (step hooks) e

theorem run_concat (hooks : CodeEngines σ μ) (e : Engine σ) (calls : List (Call φ μ))
    (call : Call φ μ) : e.run hooks (calls ++ [call]) = (e.run hooks calls).step hooks call := by
  rw [run, List.foldl_append]
  rfl

/-! ## One call -/

/-- The patches of two sources; none without sources. -/
def patchesOf (sources : Option (Source × Source)) : List Patch :=
  (sources.map fun s => Patch.merge Patch.onFrameSection s.1 s.2).getD []

/-- The speed table of two sources; the empty one without sources. -/
def tableOf (sources : Option (Source × Source)) : SpeedTable :=
  (sources.map fun s => SpeedTable.ofSources SpeedTable.speedhacksSection [s.1, s.2]).getD .empty

/-- A frame changes nothing but the code engines. -/
theorem frame_state (hooks : CodeEngines σ μ) (e : Engine σ) (cpu : Cpu) (m : μ)
    (session : Session) :
    (e.frame hooks cpu m session).1.patches = e.patches ∧
      (e.frame hooks cpu m session).1.speedTable = e.speedTable := by
  rw [frame]
  split
  · rw [patchMemory]
    dsimp only
    split <;> exact ⟨rfl, rfl⟩
  · exact ⟨rfl, rfl⟩

/-- **A call that starts anew** leaves what its sources define; a shutdown has none. -/
theorem step_of_startsAnew (hooks : CodeEngines σ μ) (e : Engine σ) {call : Call φ μ}
    (h : call.startsAnew) :
    (e.step hooks call).patches = patchesOf call.sources? ∧
      (e.step hooks call).speedTable = tableOf call.sources? := by
  cases call with
  | load shipped user session => exact ⟨rfl, rfl⟩
  | reload shipped user session => exact ⟨rfl, rfl⟩
  | loadFiles s paths session =>
    simp only [Call.startsAnew, Call.sources?] at h ⊢
    cases hread : paths.read s with
    | ok stores => simp [step, answer, loadFiles, hread, load, patchesOf, tableOf]
    | error fault => simp [hread] at h
  | shutdown => exact ⟨rfl, rfl⟩
  | _ => exact absurd h Bool.false_ne_true

/-- **Any other call** does no more than toggle patches. -/
theorem step_of_not_startsAnew (hooks : CodeEngines σ μ) (e : Engine σ) {call : Call φ μ}
    (h : call.startsAnew = false) :
    (e.step hooks call).patches = Patch.toggleAll call.toggle?.toList e.patches ∧
      (e.step hooks call).speedTable = e.speedTable := by
  cases call with
  | load shipped user session => exact absurd h.symm Bool.false_ne_true
  | reload shipped user session => exact absurd h.symm Bool.false_ne_true
  | loadFiles s paths session =>
    simp only [Call.startsAnew, Call.sources?] at h
    cases hread : paths.read s with
    | ok stores => simp [hread] at h
    | error fault => simp [step, answer, loadFiles, hread, Call.toggle?, Patch.toggleAll]
  | shutdown => exact absurd h.symm Bool.false_ne_true
  | setEnabled name enabled => exact ⟨rfl, rfl⟩
  | frame cpu m session => exact e.frame_state hooks cpu m session
  | save => exact ⟨rfl, rfl⟩
  | persist s path => exact ⟨rfl, rfl⟩
  | cycles address => exact ⟨rfl, rfl⟩

/-! ## Runs -/

/-- The sources of the last load that succeeded, unless a shutdown came after it. -/
def lastSources? (calls : List (Call φ μ)) : Option (Source × Source) :=
  (calls.findRev? Call.startsAnew).bind Call.sources?

/-- The toggles since the last load that succeeded, or the last shutdown. -/
def togglesSince (calls : List (Call φ μ)) : List (Text × Bool) :=
  (calls.rtakeWhile (!·.startsAnew)).filterMap Call.toggle?

omit [GuestMemory μ] in
theorem history_of_startsAnew (calls : List (Call φ μ)) {call : Call φ μ} (h : call.startsAnew) :
    lastSources? (calls ++ [call]) = call.sources? ∧ togglesSince (calls ++ [call]) = [] := by
  constructor
  · simp [lastSources?, List.findRev?_eq_find?_reverse, h]
  · rw [togglesSince, List.rtakeWhile_concat_neg _ _ _ (by simp [h])]
    rfl

omit [GuestMemory μ] in
theorem history_of_not_startsAnew (calls : List (Call φ μ)) {call : Call φ μ}
    (h : call.startsAnew = false) :
    lastSources? (calls ++ [call]) = lastSources? calls ∧
      togglesSince (calls ++ [call]) = togglesSince calls ++ call.toggle?.toList := by
  constructor
  · simp [lastSources?, List.findRev?_eq_find?_reverse, h]
  · have hlast : [call].filterMap Call.toggle? = call.toggle?.toList := by
      cases hc : call.toggle? <;> simp [hc]
    rw [togglesSince, List.rtakeWhile_concat_pos _ _ _ (by simp [h]), List.filterMap_append, hlast]
    rfl

/-- **A run** leaves what the last load defined, after the toggles since. -/
theorem run_state (hooks : CodeEngines σ μ) (codes : σ) (calls : List (Call φ μ)) :
    ((new codes).run hooks calls).patches =
        Patch.toggleAll (togglesSince calls) (patchesOf (lastSources? calls)) ∧
      ((new codes).run hooks calls).speedTable = tableOf (lastSources? calls) := by
  -- the induction adds calls at the end, where the history of a run ends too
  induction calls using List.reverseRecOn with
  | nil => exact ⟨rfl, rfl⟩
  | append_singleton calls call ih =>
    rw [run_concat]
    cases hcall : call.startsAnew with
    | true =>
      obtain ⟨hsources, htoggles⟩ := history_of_startsAnew calls hcall
      rw [hsources, htoggles]
      exact step_of_startsAnew hooks _ hcall
    | false =>
      obtain ⟨hsources, htoggles⟩ := history_of_not_startsAnew calls hcall
      obtain ⟨hpatches, htable⟩ := step_of_not_startsAnew hooks ((new codes).run hooks calls) hcall
      rw [hsources, htoggles, Patch.toggleAll_append, hpatches, htable, ih.1, ih.2]
      exact ⟨rfl, rfl⟩

/-- **What an engine holds** is decided by the last load that succeeded and the toggles since. After
any run of calls from a new engine:

* without such a load, or with a shutdown after it, there are no patches and the speed table is
  empty;
* otherwise the patches are those of its sources merged, each in the state that the last toggle of
  its name since then gave it, if there was one, and the speed table is that of the same sources;
* a toggle is answered by whether that merged list has a patch of the name;
* a load from files that fails changes nothing. -/
theorem run_eq_last_load (hooks : CodeEngines σ μ) (codes : σ) (calls : List (Call φ μ)) :
    let e := (new codes).run hooks calls
    (match lastSources? calls with
      | none => e.patches = [] ∧ e.speedTable = .empty
      | some (shipped, user) =>
        e.patches = (Patch.merge Patch.onFrameSection shipped user).map
            (Patch.toggled (togglesSince calls)) ∧
          e.speedTable = SpeedTable.ofSources SpeedTable.speedhacksSection [shipped, user]) ∧
      (∀ name enabled, (e.answer hooks (.setEnabled name enabled : Call φ μ)).2 =
        .found (decide (name ∈ (patchesOf (lastSources? calls)).map (·.name)))) ∧
      ∀ (s : φ) paths session fault, ConfigPaths.read paths s = .error fault →
        e.answer hooks (.loadFiles s paths session) = (e, .loaded (.error fault)) := by
  intro e
  obtain ⟨hpatches, htable⟩ := run_state hooks codes calls
  rw [Patch.toggleAll_eq_map] at hpatches
  refine ⟨?_, fun name enabled => ?_, fun s paths session fault hread => ?_⟩
  · cases hlast : lastSources? calls with
    | none =>
      rw [hlast] at hpatches htable
      exact ⟨hpatches, htable⟩
    | some sources =>
      rw [hlast] at hpatches htable
      exact ⟨hpatches, htable⟩
  · show Answer.found (e.patches.any (·.name == name)) = _
    rw [hpatches]
    simp [Patch.toggled, List.any_eq]
  · show ((e.loadFiles hooks s paths session).1, Answer.loaded _) = _
    rw [loadFiles, hread]

end Engine

end FramePatch
