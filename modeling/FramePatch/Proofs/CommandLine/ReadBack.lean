import FramePatch.Proofs.CommandLine.WriteBack
import FramePatch.Proofs.Files.Settled

/-!
# Reading what was written back

What both configurations say together before the user's one is written, and after, each time as they
are read from the files. The shipped file has to be there, or not to be asked for: a path at which
there was nothing may lead to a directory that the save has made. For the same reason the user's
path has to be settled, lest the save comes upon a file that was not read.

- `Rereadable`: this is so.
- `WroteBack.read_after`: then both configurations can be read again, and the user's one is the
  store that was written.
- `PatchesWritten.merged_eq`, `RowWritten.merged_eq`: what the configurations come to together.
- `merged_of_toggle`, `merged_of_persist`, `merged_of_setCycles`: the same of every way to write.
-/

namespace FramePatch

universe u v w

/-- The shipped configuration holds a text, if it has a path, and the user's path is settled. -/
structure Rereadable (t : FileTree) (paths : ConfigPaths) : Prop where
  shipped : ∀ path, paths.shipped = some path → ∃ text, t.readText path = .ok text
  user : ∀ path, paths.user = some path → t.Settled path

/-- Then the shipped store can be loaded. -/
theorem Rereadable.load?_shipped {t : FileTree} {paths : ConfigPaths} (h : Rereadable t paths) :
    ∃ shipped, Ini.Store.load? t paths.shipped = .ok shipped := by
  cases hgiven : paths.shipped with
  | none => exact ⟨.empty, rfl⟩
  | some path =>
    obtain ⟨text, htext⟩ := h.shipped path hgiven
    exact ⟨_, Ini.Store.load_of_readText htext⟩

namespace WroteBack

variable {owned : List Text} {t u : FileTree} {path : Text} {before after : Ini.Store}

/-- A file that was written over by a settled path is one to which that path led before. -/
theorem locate?_eq (h : WroteBack owned t path u before after) (hsettled : t.Settled path)
    {other text : Text} (hread : t.readText other = .ok text)
    (hsame : u.locate? other = u.locate? path) : t.locate? other = t.locate? path := by
  obtain ⟨loc, hloc, hwrote⟩ := h.wrote
  obtain ⟨-, k, hk, hnode⟩ := FileTree.read_eq_ok_iff.1 (FileTree.readText_eq_ok_iff.1 hread)
  rw [hwrote.locate? hk, hloc] at hsame
  obtain rfl := Option.some.inj hsame
  rw [hk, hwrote.locate?_of_settled hsettled hloc hk hnode]

/-- **Both configurations** can be read again. The user's one is the store that was written. -/
theorem read_after (h : WroteBack owned t path u before after) {paths : ConfigPaths}
    (hpath : paths.user = some path) (hfiles : Rereadable t paths) {shipped : Ini.Store}
    (hread : paths.read t = .ok (shipped, before)) :
    ∃ shippedAfter, paths.read u = .ok (shippedAfter, after) ∧
      ShippedBeside before after shipped shippedAfter := by
  obtain ⟨userText, hholds, hafter⟩ := h.holds
  have huser : Ini.Store.load? u paths.user = .ok after := by
    rw [hpath, Ini.Store.load?_some, Ini.Store.load_of_readText hholds, hafter]
  have hshipped := (ConfigPaths.read_eq_ok_iff_load?.1 hread).1
  cases hgiven : paths.shipped with
  | none =>
    rw [hgiven] at hshipped
    have hagain : Ini.Store.load? u paths.shipped = .ok shipped := by
      rw [hgiven]
      exact hshipped
    exact ⟨shipped, ConfigPaths.read_eq_ok_iff_load?.2 ⟨hagain, huser⟩, .apart shipped⟩
  | some other =>
    obtain ⟨text, htext⟩ := hfiles.shipped other hgiven
    rw [hgiven, Ini.Store.load?_some, Ini.Store.load_of_readText htext] at hshipped
    obtain rfl := Except.ok.inj hshipped
    have hagain {textAfter : Text} (htextAfter : u.readText other = .ok textAfter) :
        Ini.Store.load? u paths.shipped = .ok (Ini.Store.parse textAfter) := by
      rw [hgiven, Ini.Store.load?_some, Ini.Store.load_of_readText htextAfter]
    by_cases hsame : u.locate? other = u.locate? path
    · have hplace := h.locate?_eq (hfiles.user path hpath) htext hsame
      obtain ⟨rfl, textAfter, htextAfter, rfl⟩ := h.shared other text htext hplace
      exact ⟨_, ConfigPaths.read_eq_ok_iff_load?.2 ⟨hagain htextAfter, huser⟩, .shared⟩
    · have hkept := h.elsewhere other text htext hsame
      exact ⟨_, ConfigPaths.read_eq_ok_iff_load?.2 ⟨hagain hkept, huser⟩, .apart _⟩

end WroteBack

section Merged

variable {t u : FileTree} {path : Text} {before after shipped : Ini.Store} {paths : ConfigPaths}
  (hpath : paths.user = some path) (hfiles : Rereadable t paths)
  (hread : paths.read t = .ok (shipped, before))

include hpath hfiles hread

/-- Written patches leave the merged speed table as it was. -/
theorem PatchesWritten.merged_eq (h : PatchesWritten t path u before after) :
    ∃ shippedAfter, paths.read u = .ok (shippedAfter, after) ∧
      SpeedTable.merged shippedAfter after = SpeedTable.merged shipped before := by
  obtain ⟨shippedAfter, hagain, hbeside⟩ := h.read_after hpath hfiles hread
  exact ⟨shippedAfter, hagain, h.table shipped shippedAfter hbeside⟩

/-- A written row leaves the merged patches as they were, and the merged cycle counts of all other
addresses. -/
theorem RowWritten.merged_eq {a c : UInt32} (h : RowWritten a c t path u before after) :
    ∃ shippedAfter, paths.read u = .ok (shippedAfter, after) ∧
      Patch.frames shippedAfter after = Patch.frames shipped before ∧
      ∀ other, other ≠ a → (SpeedTable.merged shippedAfter after).cycles other =
        (SpeedTable.merged shipped before).cycles other := by
  obtain ⟨shippedAfter, hagain, hbeside⟩ := h.read_after hpath hfiles hread
  exact ⟨shippedAfter, hagain, h.patches shipped shippedAfter hbeside,
    h.others shipped shippedAfter hbeside⟩

end Merged

/-- **An engine that persists its patches** leaves the speed table of the two files as it was. -/
theorem merged_of_persist {σ : Type u} {φ : Type w} [FileSystem φ] {μ : Type v} [GuestMemory μ]
    (hooks : CodeEngines σ μ) (codes : σ) {calls : List (Call φ μ)}
    (hcalls : ∀ call ∈ calls, call.FromTexts) {t u : FileTree} {paths : ConfigPaths} {path : Text}
    (hpath : paths.user = some path) (hfiles : Rereadable t paths)
    (hpersist : ((Engine.new codes).run hooks calls).persist t path = (u, .ok ())) :
    ∃ shipped before shippedAfter after, paths.read t = .ok (shipped, before) ∧
      paths.read u = .ok (shippedAfter, after) ∧
      SpeedTable.merged shippedAfter after = SpeedTable.merged shipped before := by
  obtain ⟨before, hwritten⟩ := patchesWritten_of_persist
    (fun _ hline => Engine.plainLine_of_run hooks codes hcalls hline) hpersist
  obtain ⟨shipped, hshipped⟩ := hfiles.load?_shipped
  have hread : paths.read t = .ok (shipped, before) := by
    refine ConfigPaths.read_eq_ok_iff_load?.2 ⟨hshipped, ?_⟩
    rw [hpath]
    exact hwritten.loaded
  obtain ⟨shippedAfter, hagain, htable⟩ := hwritten.merged_eq hpath hfiles hread
  exact ⟨shipped, before, shippedAfter, _, hread, hagain, htable⟩

namespace CommandLine

variable {args : List Text} {environment : Text → Option Text} {i : Invocation}
  (hparse : Invocation.parse args environment = .ok i) {t u : FileTree} {r : Result}
  (hrun : run args environment t = (u, r)) (hexit : r.exitCode = 0)
  (hfiles : Rereadable t i.paths)

include hparse hrun hexit hfiles

/-- **A run that toggles patches** leaves the speed table of the two files as it was. -/
theorem merged_of_toggle {name : Text} {enabled : Bool}
    (hcommand : i.command = .toggle name enabled) :
    ∃ shipped before shippedAfter after, i.paths.read t = .ok (shipped, before) ∧
      i.paths.read u = .ok (shippedAfter, after) ∧
      SpeedTable.merged shippedAfter after = SpeedTable.merged shipped before := by
  obtain ⟨path, shipped, before, hpath, hread, hwritten⟩ :=
    patchesWritten_of_toggle hparse hrun hexit hcommand
  obtain ⟨shippedAfter, hagain, htable⟩ := hwritten.merged_eq hpath hfiles hread
  exact ⟨shipped, before, shippedAfter, _, hread, hagain, htable⟩

/-- **A run that sets a cycle count** leaves the patches of the two files as they were, and the
cycle counts of all other addresses. -/
theorem merged_of_setCycles {address cycles : Text}
    (hcommand : i.command = .setCycles address cycles) :
    ∃ a, Literal.read? address = some a ∧ ∃ shipped before shippedAfter after,
      i.paths.read t = .ok (shipped, before) ∧ i.paths.read u = .ok (shippedAfter, after) ∧
      Patch.frames shippedAfter after = Patch.frames shipped before ∧
      ∀ other, other ≠ a → (SpeedTable.merged shippedAfter after).cycles other =
        (SpeedTable.merged shipped before).cycles other := by
  obtain ⟨path, a, c, shipped, before, hpath, ha, -, hread, hwritten⟩ :=
    rowWritten_of_setCycles hparse hrun hexit hcommand
  obtain ⟨shippedAfter, hagain, hpatches, hothers⟩ := hwritten.merged_eq hpath hfiles hread
  exact ⟨a, ha, shipped, before, shippedAfter, _, hread, hagain, hpatches, hothers⟩

end CommandLine

end FramePatch
