import FramePatch.Proofs.CommandLine.SpeedRow
import FramePatch.Proofs.CommandLine.Toggles
import FramePatch.Proofs.Files.Keeping

/-!
# Outcomes of runs

When a command fails, and what a run leaves behind in either case, on any file system. A command
fails if it is hindered in one of five ways (`Hindered`), or if just the store that it comes to is
refused (`SaveRefused`), and for no other reason.

- `Command.plan_cases`: what a command can come to. `Command.plan_eq_fail_iff`: when it is a
  failure.
- `ComesTo`: the store that a command saves. It is that of a plan to save, and of no other
  (`Invocation.comesTo_iff`).
- `Invocation.not_ok_of_run`, `Invocation.run_of_hindered`, `Invocation.run_of_saveRefused`: a
  command fails exactly if it is hindered or refused.
- `outcome_of_run`: everything about a line that names a command, from its exit code.
-/

namespace FramePatch.CommandLine

universe u x

/-! ## Plans -/

namespace Command

/-- Whether a command writes the user's configuration. -/
def writes : Command → Bool
  | toggle _ _ => true
  | setCycles _ _ => true
  | _ => false

/-- The literals on the line of a command. -/
def literals : Command → List Text
  | showCycles address => [address]
  | setCycles address cycles => [address, cycles]
  | _ => []

variable {command : Command} {paths : ConfigPaths} {shipped user : Ini.Store}

/-- There is nothing to toggle under a name that is not there. -/
theorem plan_toggle_of_not_mem {l : Text} (hpath : paths.user = some l) {name : Text}
    (hname : name ∉ (Patch.frames shipped user).map (·.name)) (enabled : Bool) :
    (toggle name enabled).plan paths shipped user = .fail (.unknownPatch name) := by
  have hnone : (Patch.frames shipped user).any (·.name == name) = false := by
    rw [List.any_eq_false]
    intro p hp hpname
    exact hname (List.mem_map.2 ⟨p, hp, by simpa using hpname⟩)
  have htoggled : (((Engine.new ()).load (CodeEngines.none (μ := Unit)) shipped.toSource
      user.toSource {}).setEnabled name enabled).2 = false := hnone
  simp only [plan, planToggle, hpath]
  split
  · rfl
  · next hfound =>
    rw [hfound] at htoggled
    cases htoggled

/-- **A plan fails** for want of a literal, of a path, or of a patch, and for no other reason. -/
theorem plan_eq_fail_iff : (∃ failure, command.plan paths shipped user = .fail failure) ↔
    (∃ literal ∈ command.literals, Literal.read? literal = none) ∨
      (command.writes = true ∧ paths.user = none) ∨
      ∃ name enabled, command = .toggle name enabled ∧
        name ∉ (Patch.frames shipped user).map (·.name) := by
  cases command with
  | list entries => simp [plan, literals, writes]
  | showTable => simp [plan, literals, writes]
  | showCycles address =>
    cases hread : Literal.read? address <;> simp [plan, literals, writes, hread]
  | setCycles address cycles =>
    cases ha : Literal.read? address <;> cases hc : Literal.read? cycles <;>
      cases hpath : paths.user <;> simp [plan, planSetCycles, literals, writes, ha, hc, hpath]
  | toggle name enabled =>
    cases hpath : paths.user with
    | none => simp [plan, planToggle, literals, writes, hpath]
    | some l =>
      by_cases hname : name ∈ (Patch.frames shipped user).map (·.name)
      · rw [plan_toggle hpath hname]
        simpa [literals] using hname
      · rw [plan_toggle_of_not_mem hpath hname]
        simpa [literals] using hname

/-- A plan is a failure, or it is what the kind of the command asks for: a query prints, and a
command that writes saves at the user's path. -/
theorem plan_cases (command : Command) (paths : ConfigPaths) (shipped user : Ini.Store) :
    (∃ failure, command.plan paths shipped user = .fail failure) ∨
      (command.writes = false ∧ ∃ output, command.plan paths shipped user = .print output) ∨
      (command.writes = true ∧ ∃ path edit output, paths.user = some path ∧
        command.plan paths shipped user = .save path edit output) := by
  cases command with
  | list entries => exact .inr (.inl ⟨rfl, _, rfl⟩)
  | showTable => exact .inr (.inl ⟨rfl, _, rfl⟩)
  | showCycles address =>
    cases ha : Literal.read? address with
    | none => exact .inl ⟨.badAddress address, by simp only [plan, ha]⟩
    | some a => exact .inr (.inl ⟨rfl, _, plan_showCycles ha⟩)
  | setCycles address cycles =>
    cases ha : Literal.read? address with
    | none => exact .inl ⟨.badAddress address, by simp only [plan, ha]⟩
    | some a =>
      cases hc : Literal.read? cycles with
      | none => exact .inl ⟨.badCycles cycles, by simp only [plan, ha, hc]⟩
      | some c =>
        cases hpath : paths.user with
        | none =>
          exact .inl ⟨.noPathForSpeedTable, by simp only [plan, ha, hc, planSetCycles, hpath]⟩
        | some l => exact .inr (.inr ⟨rfl, l, _, _, rfl, plan_setCycles hpath ha hc⟩)
  | toggle name enabled =>
    cases hpath : paths.user with
    | none => exact .inl ⟨.noPathForPatches, by simp only [plan, planToggle, hpath]⟩
    | some l =>
      by_cases hname : name ∈ (Patch.frames shipped user).map (·.name)
      · exact .inr (.inr ⟨rfl, l, _, _, rfl, plan_toggle hpath hname enabled⟩)
      · exact .inl ⟨.unknownPatch name, plan_toggle_of_not_mem hpath hname enabled⟩

/-- A command that prints alone is a query. -/
theorem plan_eq_print {output : Text} (h : command.plan paths shipped user = .print output) :
    command.writes = false := by
  rcases command.plan_cases paths shipped user with
    ⟨_, hfail⟩ | ⟨hquery, -⟩ | ⟨-, _, _, _, -, hsave⟩
  · rw [h] at hfail
    cases hfail
  · exact hquery
  · rw [h] at hsave
    cases hsave

/-- A command that saves is one that writes, and it saves at the user's path. -/
theorem plan_eq_save {path output : Text} {edit : Ini.Store → Ini.Store}
    (h : command.plan paths shipped user = .save path edit output) :
    command.writes = true ∧ paths.user = some path := by
  rcases command.plan_cases paths shipped user with
    ⟨_, hfail⟩ | ⟨-, _, hprint⟩ | ⟨hwrites, _, _, _, hpath, hsave⟩
  · rw [h] at hfail
    cases hfail
  · rw [h] at hprint
    cases hprint
  · rw [h] at hsave
    obtain ⟨rfl, -, -⟩ := Plan.save.inj hsave
    exact ⟨hwrites, hpath⟩

end Command

/-! ## What a command comes to -/

section Systems

variable {φ : Type u} [FileSystem φ]

/-- The store that a command is to save, and the path it is to save it at: the user's one with the
patches of a name toggled, or with a row of the speed table set. -/
inductive ComesTo (i : Invocation) (s : φ) : Text → Ini.Store → Prop where
  | toggle {name : Text} {enabled : Bool} {path : Text} {shipped user : Ini.Store}
      (toggles : i.command = .toggle name enabled) (given : i.paths.user = some path)
      (reading : i.paths.read s = .ok (shipped, user))
      (known : name ∈ (Patch.frames shipped user).map (·.name)) :
      ComesTo i s path (Patch.toggledStore shipped user [(name, enabled)])
  | setCycles {address cycles path : Text} {a c : UInt32} {shipped user : Ini.Store}
      (sets : i.command = .setCycles address cycles) (given : i.paths.user = some path)
      (reading : i.paths.read s = .ok (shipped, user))
      (addressRead : Literal.read? address = some a) (cyclesRead : Literal.read? cycles = some c) :
      ComesTo i s path (SpeedTable.setCycles user a c)

/-- Only a command that writes comes to a store, and it saves it at the user's path. -/
theorem ComesTo.writes {i : Invocation} {s : φ} {path : Text} {store : Ini.Store}
    (h : ComesTo i s path store) : i.command.writes = true ∧ i.paths.user = some path := by
  cases h with
  | toggle toggles given => exact ⟨by rw [toggles]; rfl, given⟩
  | setCycles sets given => exact ⟨by rw [sets]; rfl, given⟩

/-- What makes a command fail, whatever store it comes to. -/
inductive Hindered (i : Invocation) (s : φ) : Prop where
  /-- A configuration is there, but cannot be read as a text. -/
  | unreadable {path : Text} {fault : Fault}
      (given : i.paths.shipped = some path ∨ i.paths.user = some path)
      (reading : FileSystem.readText s path = .error fault) (notMissing : fault.isMissing = false)
  /-- An address or a cycle count is no literal. -/
  | badLiteral {literal : Text} (onLine : literal ∈ i.command.literals)
      (reading : Literal.read? literal = none)
  /-- There is no path to write to. -/
  | noPath (writes : i.command.writes = true) (missing : i.paths.user = none)
  /-- There is no patch of the name. -/
  | unknownName {name : Text} {enabled : Bool} {shipped user : Ini.Store}
      (toggles : i.command = .toggle name enabled) (reading : i.paths.read s = .ok (shipped, user))
      (unknown : name ∉ (Patch.frames shipped user).map (·.name))
  /-- Whatever is saved at the path cannot be. -/
  | unsaved {path : Text} (writes : i.command.writes = true) (given : i.paths.user = some path)
      (refused : ∀ bytes, (FileSystem.save s path bytes).2 ≠ none)

/-- The store that a command comes to cannot be saved, whatever other ones could be. -/
def SaveRefused (i : Invocation) (s : φ) : Prop :=
  ∃ path store, ComesTo i s path store ∧ (FileSystem.save s path store.toBytes).2 ≠ none

/-- The files `t` are the files `s`, or what is left of them by a save that failed. -/
def OnlyTried (i : Invocation) (s t : φ) : Prop :=
  t = s ∨ ∃ path store fault, ComesTo i s path store ∧
    FileSystem.save s path store.toBytes = (t, some fault)

namespace Invocation

variable {i : Invocation} {s t : φ}

/-- A command comes to the edit of its plan. -/
theorem comesTo_iff {path : Text} {store : Ini.Store} : ComesTo i s path store ↔
    ∃ shipped user edit output, i.paths.read s = .ok (shipped, user) ∧
      i.command.plan i.paths shipped user = .save path edit output ∧ store = edit user := by
  constructor
  · intro h
    cases h with
    | @toggle name enabled _ _ _ toggles given reading known =>
      have hplan := Command.plan_toggle given known enabled
      rw [← toggles] at hplan
      exact ⟨_, _, _, _, reading, hplan, rfl⟩
    | @setCycles _ _ _ a c shipped user sets given reading addressRead cyclesRead =>
      refine ⟨shipped, user, (SpeedTable.setCycles · a c),
        Command.unlines [Command.cyclesLine (a, c)], reading, ?_, rfl⟩
      rw [sets, Command.plan_setCycles given addressRead cyclesRead]
  · rintro ⟨shipped, user, edit, output, hread, hplan, rfl⟩
    obtain ⟨hwrites, hpath⟩ := Command.plan_eq_save hplan
    cases hcommand : i.command with
    | toggle name enabled =>
      rw [hcommand] at hplan
      by_cases hname : name ∈ (Patch.frames shipped user).map (·.name)
      · rw [Command.plan_toggle hpath hname] at hplan
        obtain ⟨-, rfl, -⟩ := Plan.save.inj hplan
        exact .toggle hcommand hpath hread hname
      · rw [Command.plan_toggle_of_not_mem hpath hname] at hplan
        cases hplan
    | setCycles address cycles =>
      rw [hcommand] at hplan
      -- both literals have been read, or there would be no plan to save
      cases ha : Literal.read? address with
      | none => simp [Command.plan, ha] at hplan
      | some a =>
        cases hc : Literal.read? cycles with
        | none => simp [Command.plan, ha, hc] at hplan
        | some c =>
          rw [Command.plan_setCycles hpath ha hc] at hplan
          obtain ⟨-, rfl, -⟩ := Plan.save.inj hplan
          exact .setCycles hcommand hpath hread ha hc
    | _ =>
      rw [hcommand] at hwrites
      cases hwrites

/-! ## Failures -/

/-- **A command that fails** is hindered, or what it comes to is refused. Nothing was done before,
and nothing but that save was tried. -/
theorem not_ok_of_run {failure : Failure} (h : i.run s = (t, .error failure)) :
    (Hindered i s ∨ SaveRefused i s) ∧ OnlyTried i s t := by
  cases hread : i.paths.read s with
  | error error =>
    rw [run_of_read_error hread] at h
    obtain ⟨path, fault, hgiven, hfault, hmissing⟩ := ConfigPaths.read_eq_error_iff.1 ⟨error, hread⟩
    exact ⟨.inl (.unreadable hgiven hfault hmissing), .inl (Prod.mk.inj h).1.symm⟩
  | ok stores =>
    rcases (run_eq_error_iff hread).1 h with
      ⟨hfail, rfl⟩ | ⟨path, edit, output, error, hplan, herror, -⟩
    · refine ⟨.inl ?_, .inl rfl⟩
      rcases Command.plan_eq_fail_iff.1 ⟨failure, hfail⟩ with
        ⟨literal, hliteral, hbad⟩ | ⟨hwrites, hnone⟩ | ⟨name, enabled, htoggles, hname⟩
      · exact .badLiteral hliteral hbad
      · exact .noPath hwrites hnone
      · exact .unknownName htoggles hread hname
    · obtain ⟨fault, hsave, -⟩ := Ini.Store.saveFile_eq_error_iff.1 herror
      have hcomes : ComesTo i s path (edit stores.2) :=
        comesTo_iff.2 ⟨_, _, edit, output, hread, hplan, rfl⟩
      have hrefused : (FileSystem.save s path (edit stores.2).toBytes).2 ≠ none := by
        rw [hsave]
        exact Option.some_ne_none fault
      exact ⟨.inr ⟨path, _, hcomes, hrefused⟩, .inr ⟨path, _, fault, hcomes, hsave⟩⟩

/-- **A command whose store is refused** fails. -/
theorem run_of_saveRefused (h : SaveRefused i s) : ∃ t failure, i.run s = (t, .error failure) := by
  obtain ⟨path, store, hcomes, hrefused⟩ := h
  obtain ⟨shipped, user, edit, output, hread, hplan, rfl⟩ := comesTo_iff.1 hcomes
  obtain ⟨fault, hfault⟩ := Option.ne_none_iff_exists'.1 hrefused
  have herror := Ini.Store.saveFile_eq_error_iff.2 ⟨fault, Prod.ext rfl hfault, rfl⟩
  exact ⟨_, _, (run_eq_error_iff hread).2 (.inr ⟨path, edit, output, _, hplan, herror, rfl⟩)⟩

/-- **A command that is hindered** fails. -/
theorem run_of_hindered (h : Hindered i s) : ∃ t failure, i.run s = (t, .error failure) := by
  cases hread : i.paths.read s with
  | error error => exact ⟨s, .loading error, run_of_read_error hread⟩
  | ok stores =>
    have hfails (hplan : ∃ failure, i.command.plan i.paths stores.1 stores.2 = .fail failure) :
        ∃ t failure, i.run s = (t, .error failure) := by
      obtain ⟨failure, hfail⟩ := hplan
      exact ⟨s, failure, run_of_fail hread hfail⟩
    cases h with
    | unreadable given reading notMissing =>
      obtain ⟨error, herror⟩ := ConfigPaths.read_eq_error_iff.2 ⟨_, _, given, reading, notMissing⟩
      rw [hread] at herror
      cases herror
    | badLiteral onLine reading =>
      exact hfails (Command.plan_eq_fail_iff.2 (.inl ⟨_, onLine, reading⟩))
    | noPath writes missing =>
      exact hfails (Command.plan_eq_fail_iff.2 (.inr (.inl ⟨writes, missing⟩)))
    | unknownName toggles reading unknown =>
      obtain rfl := Except.ok.inj (hread.symm.trans reading)
      exact hfails (Command.plan_eq_fail_iff.2 (.inr (.inr ⟨_, _, toggles, unknown⟩)))
    | @unsaved path writes given refused =>
      rcases i.command.plan_cases i.paths stores.1 stores.2 with
        hfail | ⟨hquery, -⟩ | ⟨-, other, edit, output, hother, hplan⟩
      · exact hfails hfail
      · rw [hquery] at writes
        cases writes
      · obtain rfl : path = other := Option.some.inj (given.symm.trans hother)
        have hcomes := comesTo_iff.2 ⟨_, _, edit, output, hread, hplan, rfl⟩
        exact run_of_saveRefused ⟨path, _, hcomes, refused _⟩

/-! ## Successes -/

/-- **A query** changes nothing, be it that it fails or succeeds. -/
theorem files_of_query (hquery : i.command.writes = false) : (i.run s).1 = s := by
  cases hread : i.paths.read s with
  | error error => rw [run_of_read_error hread]
  | ok stores =>
    rcases i.command.plan_cases i.paths stores.1 stores.2 with
      ⟨failure, hfail⟩ | ⟨-, output, hprint⟩ | ⟨hwrites, -⟩
    · rw [run_of_fail hread hfail]
    · rw [run_of_print hread hprint]
    · rw [hquery] at hwrites
      cases hwrites

/-- **A command that writes** and succeeds has saved the store that it comes to. -/
theorem saved_of_run {output : Text} (hwrites : i.command.writes = true)
    (h : i.run s = (t, .ok output)) :
    ∃ path store, ComesTo i s path store ∧ store.saveFile s path = (t, .ok ()) := by
  obtain ⟨shipped, user, hread⟩ := read_of_run h
  rcases (run_eq_ok_iff hread).1 h with ⟨hprint, -⟩ | ⟨path, edit, hplan, hsave⟩
  · rw [Command.plan_eq_print hprint] at hwrites
    cases hwrites
  · exact ⟨path, _, comesTo_iff.2 ⟨_, _, edit, output, hread, hplan, rfl⟩, hsave⟩

end Invocation

/-- A save that failed has changed no file, if the system leaves files alone when it refuses. -/
theorem OnlyTried.kept {i : Invocation} {s t : φ} (h : OnlyTried i s t) {ι : Type x}
    {file : φ → ι → Option ByteArray} (hkeeps : FileSystem.KeepsFiles file) {k : ι}
    {bytes : ByteArray} (hfile : file s k = some bytes) : file t k = some bytes := by
  rcases h with rfl | ⟨path, store, fault, -, hsave⟩
  · exact hfile
  · exact hkeeps.save hsave hfile

/-- **The outcome of a line** that names a command, on any file system. It ends with exit code 1 if
the command is hindered, or if the store that it comes to is refused, and with 0 otherwise. If the
command is a query, nothing is changed. If it fails, it prints nothing, and at most one save was
tried; whatever a file held it still holds, if the system leaves files alone when it refuses. If it
writes and succeeds, one save was made, of the store that it comes to. -/
theorem outcome_of_run {args : List Text} {environment : Text → Option Text} {i : Invocation}
    (hparse : Invocation.parse args environment = .ok i) {s t : φ} {r : Result}
    (hrun : run args environment s = (t, r)) :
    (r.exitCode = 1 ↔ Hindered i s ∨ SaveRefused i s) ∧
      (r.exitCode = 0 ↔ ¬(Hindered i s ∨ SaveRefused i s)) ∧
      (i.command.writes = false → t = s) ∧
      (r.exitCode = 1 → r.output = [] ∧ OnlyTried i s t ∧
        ∀ {ι : Type x} (file : φ → ι → Option ByteArray), FileSystem.KeepsFiles file →
          ∀ k bytes, file s k = some bytes → file t k = some bytes) ∧
      (r.exitCode = 0 → i.command.writes = true → ∃ path store, ComesTo i s path store ∧
        FileSystem.save s path store.toBytes = (t, none)) := by
  have hquery : i.command.writes = false → (i.run s).1 = s := i.files_of_query
  rw [run_of_parse hparse] at hrun
  cases hresult : i.run s with
  | mk after result =>
    rw [hresult] at hrun hquery
    obtain ⟨rfl, rfl⟩ := Prod.mk.inj hrun
    cases result with
    | ok output =>
      have hfree : ¬(Hindered i s ∨ SaveRefused i s) := by
        intro h
        obtain ⟨_, failure, hfailed⟩ :=
          h.elim Invocation.run_of_hindered Invocation.run_of_saveRefused
        rw [hresult] at hfailed
        cases hfailed
      refine ⟨iff_of_false Nat.zero_ne_one hfree, iff_of_true rfl hfree, hquery, ?_, ?_⟩
      · intro hexit
        exact absurd hexit Nat.zero_ne_one
      · intro _ hwrites
        obtain ⟨path, store, hcomes, hsave⟩ := Invocation.saved_of_run hwrites hresult
        exact ⟨path, store, hcomes, Ini.Store.saveFile_eq_ok_iff.1 hsave⟩
    | error failure =>
      obtain ⟨hfails, htried⟩ := Invocation.not_ok_of_run hresult
      refine ⟨iff_of_true rfl hfails, iff_of_false Nat.one_ne_zero (not_not_intro hfails),
        hquery, ?_, ?_⟩
      · intro _
        exact ⟨rfl, htried, fun file hkeeps k bytes hfile => htried.kept hkeeps hfile⟩
      · intro hexit
        exact absurd hexit Nat.one_ne_zero

end Systems

end FramePatch.CommandLine
