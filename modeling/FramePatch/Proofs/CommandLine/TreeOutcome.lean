import FramePatch.Proofs.CommandLine.Outcome

/-!
# Outcomes of runs on file trees

What is known of a run on a file tree beside `outcome_of_run`. Whether a save in a tree fails does
not depend on what is saved, so a command that fails is hindered. A run that failed may have made
directories on the way to the user's configuration before its save failed. A command that writes
changes one file.

- `OnlyMadeWay`, `OnlySaved`: what a command that fails leaves behind, and what one that writes
  does.
- `run_outcome`: everything about a line that names a command, from its exit code.
-/

namespace FramePatch.CommandLine

/-- The tree `u` is the tree `t`, or has new directories on the way to the user's configuration. -/
def OnlyMadeWay (i : Invocation) (t u : FileTree) : Prop :=
  u = t ∨ ∃ path, i.paths.user = some path ∧
    FileTree.MadeWay t (t.origin path) (FileTree.parentNames path) u

/-- The tree `u` is the tree `t`, but for a file at a location, to which the user's path leads, and
for new directories on the way there. -/
def OnlySaved (i : Invocation) (t : FileTree) (loc : Location) (u : FileTree) : Prop :=
  ∃ path made bytes, i.paths.user = some path ∧
    FileTree.MadeWay t (t.origin path) (FileTree.parentNames path) made ∧
    u = made.put loc (.file bytes) ∧ u.locate? path = some loc ∧ u.read path = .ok bytes

/-- No file is changed by making directories. -/
theorem OnlyMadeWay.file_iff {i : Invocation} {t u : FileTree} (h : OnlyMadeWay i t u)
    {k : Location} {bytes : ByteArray} :
    u.node? k = some (.file bytes) ↔ t.node? k = some (.file bytes) := by
  rcases h with rfl | ⟨path, -, hway⟩
  · rfl
  · exact hway.file_iff

/-- No other file is changed by a save. -/
theorem OnlySaved.file_iff {i : Invocation} {t u : FileTree} {loc k : Location}
    (h : OnlySaved i t loc u) (hk : k ≠ loc) {bytes : ByteArray} :
    u.node? k = some (.file bytes) ↔ t.node? k = some (.file bytes) := by
  obtain ⟨path, made, saved, -, hway, rfl, -, -⟩ := h
  rw [FileTree.node?_put_other made _ hk]
  exact hway.file_iff

section Tree

variable {i : Invocation} {t u : FileTree}

/-- If one store is refused, every other one would have been. -/
theorem Hindered.of_saveRefused (h : SaveRefused i t) : Hindered i t := by
  obtain ⟨path, store, hcomes, hrefused⟩ := h
  obtain ⟨hwrites, hpath⟩ := hcomes.writes
  refine .unsaved hwrites hpath fun bytes hnone => hrefused ?_
  rw [FileTree.fileSystem_save] at hnone ⊢
  exact FileTree.save_congr hnone store.toBytes

/-- **A save that was tried** and failed has made directories on its way, and no more. -/
theorem OnlyTried.onlyMadeWay (h : OnlyTried i t u) : OnlyMadeWay i t u := by
  rcases h with rfl | ⟨path, store, fault, hcomes, hsave⟩
  · exact .inl rfl
  · refine .inr ⟨path, hcomes.writes.2, ?_⟩
    obtain ⟨made, hway, ⟨_, hmade⟩ | ⟨-, _, -, -, hsaved⟩⟩ := t.save_cases path store.toBytes
    · rw [FileTree.fileSystem_save, hmade] at hsave
      obtain ⟨rfl, -⟩ := Prod.mk.inj hsave
      exact hway
    · rw [FileTree.fileSystem_save, hsaved] at hsave
      cases hsave

/-- **A save that was made** has changed one file. -/
theorem ComesTo.onlySaved {path : Text} {store : Ini.Store} (h : ComesTo i t path store)
    (hsave : FileSystem.save t path store.toBytes = (u, none)) : ∃ loc, OnlySaved i t loc u := by
  obtain ⟨made, hway, ⟨_, hmade⟩ | ⟨hfile, loc, hloc, hdir, hput⟩⟩ :=
    t.save_cases path store.toBytes
  · rw [FileTree.fileSystem_save, hmade] at hsave
    cases hsave
  · rw [FileTree.fileSystem_save, hput] at hsave
    obtain ⟨rfl, -⟩ := Prod.mk.inj hsave
    have hwrote := FileTree.wrote_put store.toBytes hdir
    have hleads := hwrote.locate? hloc
    exact ⟨loc, path, made, store.toBytes, h.writes.2, hway, rfl, hleads,
      hwrote.read_self hleads hfile⟩

end Tree

/-- **The outcome of a line** that names a command, on a file tree. It ends with exit code 1 if the
command is hindered, and with 0 if it is not. If the command is a query, nothing is changed. If it
fails, it prints nothing and changes no file, but it may have made directories on the way to the
user's configuration. If it writes and succeeds, the file at the user's path is the only one it
changes. -/
theorem run_outcome {args : List Text} {environment : Text → Option Text} {i : Invocation}
    (hparse : Invocation.parse args environment = .ok i) {t u : FileTree} {r : Result}
    (hrun : run args environment t = (u, r)) :
    (r.exitCode = 1 ↔ Hindered i t) ∧ (r.exitCode = 0 ↔ ¬Hindered i t) ∧
      (i.command.writes = false → u = t) ∧
      (r.exitCode = 1 → r.output = [] ∧ OnlyMadeWay i t u ∧
        ∀ k bytes, u.node? k = some (.file bytes) ↔ t.node? k = some (.file bytes)) ∧
      (r.exitCode = 0 → i.command.writes = true → ∃ loc, OnlySaved i t loc u ∧
        ∀ k, k ≠ loc → ∀ bytes,
          (u.node? k = some (.file bytes) ↔ t.node? k = some (.file bytes))) := by
  obtain ⟨hfails, hsucceeds, hquery, hfailed, hdone⟩ := outcome_of_run.{0, 0} hparse hrun
  have hhindered : Hindered i t ∨ SaveRefused i t ↔ Hindered i t :=
    or_iff_left_of_imp Hindered.of_saveRefused
  rw [hhindered] at hfails hsucceeds
  refine ⟨hfails, hsucceeds, hquery, fun hexit => ?_, fun hexit hwrites => ?_⟩
  · obtain ⟨houtput, htried, -⟩ := hfailed hexit
    exact ⟨houtput, htried.onlyMadeWay, fun k bytes => htried.onlyMadeWay.file_iff⟩
  · obtain ⟨path, store, hcomes, hsave⟩ := hdone hexit hwrites
    obtain ⟨loc, hsaved⟩ := hcomes.onlySaved hsave
    exact ⟨loc, hsaved, fun k hk bytes => hsaved.file_iff hk⟩

/-- A save that fails for its last name alone, once the directory before it has been made. -/
theorem run_outcome_made_way :
    let path := "new/..".toList
    let line := setLine [Flag.userPath.name ++ '=' :: path] "0x0".toList ['1']
    let i : Invocation := ⟨{ user := some path }, .setCycles "0x0".toList ['1']⟩
    let t := FileTree.empty []
    Invocation.parse line (fun _ => none) = .ok i ∧
      ∃ u r, run line (fun _ => none) t = (u, r) ∧ r.exitCode = 1 ∧ Hindered i t ∧
        r.output = [] ∧ u.node? ["new".toList] = some .directory ∧ OnlyMadeWay i t u := by
  intro path line i t
  have hparse : Invocation.parse line (fun _ => none) = .ok i := by rfl
  have hrun : run line (fun _ => none) t = (t.put ["new".toList] .directory,
      .failed (.saving path (.unwritable path .isADirectory))) := by rfl
  obtain ⟨hindered, -, -, hfailed, -⟩ := run_outcome hparse hrun
  obtain ⟨houtput, hway, -⟩ := hfailed rfl
  exact ⟨hparse, _, _, hrun, rfl, hindered.1 rfl, houtput, rfl, hway⟩

end FramePatch.CommandLine
