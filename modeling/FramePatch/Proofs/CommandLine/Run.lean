import FramePatch.CommandLine.Report
import FramePatch.Proofs.Ini.File

/-!
# Runs on file systems

What a command does to files, whatever system they are in. A command that writes reads the user's
configuration twice. Nothing is written in between, so both readings give the same store
(`reread`), and what is saved is the edit of the store that the plan was made with
(`Invocation.run_eq`).

- `Invocation.run_eq_ok_iff`: a command succeeds by printing something and leaving the files alone,
  or by saving a store first.
- `Invocation.run_eq_error_iff`: it fails with nothing done, or in saving what it comes to. It never
  fails at the second reading (`Invocation.run_ne_rereading`).
- `run_of_parse`: a line that names a command does what the command does, and its exit code says
  whether the command succeeded (`ok_of_exitCode`).
-/

namespace FramePatch

universe u

variable {φ : Type u} [FileSystem φ]

/-- **Reading again**, from the same files, gives the same store. -/
theorem ConfigPaths.reread {paths : ConfigPaths} {s : φ} {shipped user : Ini.Store}
    (h : paths.read s = .ok (shipped, user)) :
    (Ini.Store.reading paths.user).runOn s = (s, .ok user) := by
  rw [Ini.Store.runOn_reading, (read_eq_ok_iff_load?.1 h).2]

namespace CommandLine

/-- A plan is made before anything is read again. -/
theorem Command.plan_ne_rereading {command : Command} {paths : ConfigPaths}
    {shipped user : Ini.Store} (error : FileError) :
    command.plan paths shipped user ≠ .fail (.rereading error) := by
  cases command with
  | list entries => exact nofun
  | showTable => exact nofun
  | showCycles address =>
    rw [plan]
    split <;> exact nofun
  | setCycles address cycles =>
    rw [plan]
    split
    · exact nofun
    · exact nofun
    · cases paths.user <;> exact nofun
  | toggle name enabled =>
    cases hpath : paths.user with
    | none =>
      simp only [plan, planToggle, hpath]
      exact nofun
    | some path =>
      simp only [plan, planToggle, hpath]
      split <;> exact nofun

namespace Invocation

variable {i : Invocation} {s t : φ} {shipped user : Ini.Store} {output : Text}

/-- **A run** reads both stores, and saves the edit of the user's one if its plan is to save. -/
theorem run_eq (i : Invocation) (s : φ) :
    i.run s =
      match i.paths.read s with
      | .error error => (s, .error (.loading error))
      | .ok (shipped, user) =>
        match i.command.plan i.paths shipped user with
        | .print output => (s, .ok output)
        | .fail failure => (s, .error failure)
        | .save path edit output =>
          match (edit user).saveFile s path with
          | (t, .ok ()) => (t, .ok output)
          | (t, .error error) => (t, .error (.saving path error)) := by
  rw [run, program, FileProgram.runOn_bind, ConfigPaths.runOn_reading]
  cases hread : i.paths.read s with
  | error error => rfl
  | ok stores =>
    obtain ⟨shipped, user⟩ := stores
    cases hplan : i.command.plan i.paths shipped user with
    | print output => simp only [hplan, FileProgram.runOn_pure]
    | fail failure => simp only [hplan, FileProgram.runOn_pure]
    | save path edit output =>
      simp only [hplan, FileProgram.runOn_bind, ConfigPaths.reread hread, Ini.Store.saveFile]
      cases ((edit user).saving path).runOn s with
      | mk t result => cases result <;> rfl

/-- A command whose stores cannot be read has failed before it did anything. -/
theorem run_of_read_error {error : FileError} (hread : i.paths.read s = .error error) :
    i.run s = (s, .error (.loading error)) := by
  rw [run_eq, hread]

theorem run_of_print (hread : i.paths.read s = .ok (shipped, user))
    (hplan : i.command.plan i.paths shipped user = .print output) : i.run s = (s, .ok output) := by
  simp only [run_eq, hread, hplan]

theorem run_of_fail {failure : Failure} (hread : i.paths.read s = .ok (shipped, user))
    (hplan : i.command.plan i.paths shipped user = .fail failure) :
    i.run s = (s, .error failure) := by
  simp only [run_eq, hread, hplan]

/-- A command that succeeds has read both stores. -/
theorem read_of_run (h : i.run s = (t, .ok output)) :
    ∃ shipped user, i.paths.read s = .ok (shipped, user) := by
  cases hread : i.paths.read s with
  | error error =>
    simp only [run_of_read_error hread, Prod.mk.injEq, reduceCtorEq, and_false] at h
  | ok stores => exact ⟨stores.1, stores.2, rfl⟩

/-- A command succeeds by printing alone, or by saving the store that it comes to. -/
theorem run_eq_ok_iff (hread : i.paths.read s = .ok (shipped, user)) :
    i.run s = (t, .ok output) ↔
      i.command.plan i.paths shipped user = .print output ∧ s = t ∨
        ∃ path edit, i.command.plan i.paths shipped user = .save path edit output ∧
          (edit user).saveFile s path = (t, .ok ()) := by
  simp only [run_eq, hread]
  cases i.command.plan i.paths shipped user with
  | print text => simp [and_comm]
  | fail failure => simp
  | save path edit text =>
    simp only [reduceCtorEq, false_and, false_or, Plan.save.injEq]
    constructor
    · intro h
      split at h
      · next saved hsave =>
        obtain ⟨rfl, hout⟩ := Prod.mk.inj h
        exact ⟨path, edit, ⟨rfl, rfl, Except.ok.inj hout⟩, hsave⟩
      · cases h
    · rintro ⟨_, _, ⟨rfl, rfl, rfl⟩, hsave⟩
      rw [hsave]

/-- A command fails with nothing done, or in saving what it comes to. -/
theorem run_eq_error_iff {failure : Failure} (hread : i.paths.read s = .ok (shipped, user)) :
    i.run s = (t, .error failure) ↔
      i.command.plan i.paths shipped user = .fail failure ∧ s = t ∨
        ∃ path edit output error, i.command.plan i.paths shipped user = .save path edit output ∧
          (edit user).saveFile s path = (t, .error error) ∧ failure = .saving path error := by
  simp only [run_eq, hread]
  cases i.command.plan i.paths shipped user with
  | print text => simp
  | fail reason => simp [and_comm]
  | save path edit text =>
    simp only [reduceCtorEq, false_and, false_or, Plan.save.injEq]
    constructor
    · intro h
      split at h
      · cases h
      · next error hsave =>
        obtain ⟨rfl, hfailure⟩ := Prod.mk.inj h
        exact ⟨path, edit, text, error, ⟨rfl, rfl, rfl⟩, hsave, (Except.error.inj hfailure).symm⟩
    · rintro ⟨_, _, _, error, ⟨rfl, rfl, rfl⟩, hsave, rfl⟩
      rw [hsave]

/-- The second reading never fails. It could only do so if the files were changed in between. -/
theorem run_ne_rereading (error : FileError) : i.run s ≠ (t, .error (.rereading error)) := by
  intro h
  cases hread : i.paths.read s with
  | error first =>
    rw [run_of_read_error hread] at h
    cases h
  | ok stores =>
    rcases (run_eq_error_iff hread).1 h with ⟨hfail, -⟩ | ⟨_, _, _, _, -, -, hfailure⟩
    · exact Command.plan_ne_rereading error hfail
    · cases hfailure

end Invocation

section Lines

variable {args : List Text} {environment : Text → Option Text} {i : Invocation}
  (hparse : Invocation.parse args environment = .ok i) {s t : φ}

include hparse

/-- **A line that names a command** does what the command does. -/
theorem run_of_parse (s : φ) :
    run args environment s = ((i.run s).1, .ofCommand (i.run s).2) := by
  simp only [run, program, hparse, FileProgram.runOn_bind]
  rfl

/-- It prints what the command prints, if that succeeds. -/
theorem run_of_ok {output : Text} (h : i.run s = (t, .ok output)) :
    run args environment s = (t, .done output) := by
  rw [run_of_parse hparse, h]
  rfl

/-- It saves the store that the command comes to. -/
theorem run_of_save {shipped user : Ini.Store} {path output : Text} {edit : Ini.Store → Ini.Store}
    (hread : i.paths.read s = .ok (shipped, user))
    (hplan : i.command.plan i.paths shipped user = .save path edit output)
    (hsave : (edit user).saveFile s path = (t, .ok ())) :
    run args environment s = (t, .done output) :=
  run_of_ok hparse ((Invocation.run_eq_ok_iff hread).2 (.inr ⟨path, edit, hplan, hsave⟩))

/-- **The exit code** of a line that names a command is 0 only if the command succeeds. -/
theorem ok_of_exitCode {r : Result} (h : run args environment s = (t, r)) (hexit : r.exitCode = 0) :
    ∃ output, i.run s = (t, .ok output) := by
  rw [run_of_parse hparse] at h
  cases hrun : i.run s with
  | mk after result =>
    rw [hrun] at h
    obtain ⟨rfl, rfl⟩ := Prod.mk.inj h
    cases result with
    | ok output => exact ⟨output, rfl⟩
    | error failure => exact absurd hexit Nat.one_ne_zero

end Lines

end CommandLine

end FramePatch
