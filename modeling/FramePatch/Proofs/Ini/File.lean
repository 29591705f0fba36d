import FramePatch.Proofs.Files.Overwrite
import FramePatch.Proofs.Ini.Configurations
import FramePatch.Proofs.Ini.RoundTrip

/-!
# Stores in files

On any file system, whatever is loaded is well-formed, and saving a store succeeds or fails as the
save of its bytes does. Of a file tree it is known what is loaded before a store is saved, and
after. A file that holds a text can always be saved over (`saveFile_of_readText`). Once a
well-formed store has been saved, it is loaded from its path (`load_of_saveFile`), and every file
that held a text before still holds one: its own, or the text of the store, if its path leads to the
same place (`readText_of_saveFile`).
-/

namespace FramePatch

universe u

namespace Ini.Store

section Systems

variable {φ : Type u} [FileSystem φ] {s t : φ} {store : Store} {path : Text}

/-! ## Any files -/

/-- Whatever is loaded is well-formed, be it from a text, from no file or without a path. -/
theorem wellFormed_of_load? {path? : Option Text} (h : load? s path? = .ok store) :
    store.WellFormed := by
  cases load?_eq_ok_iff.1 h with
  | noPath => exact wellFormed_empty
  | noFile => exact wellFormed_empty
  | text => exact wellFormed_parse _

/-- The same, where there is a path. -/
theorem wellFormed_of_load (h : load s path = .ok store) : store.WellFormed :=
  wellFormed_of_load? ((load?_some s path).trans h)

/-- Saving a store succeeds exactly if a save of its bytes does. -/
theorem saveFile_eq_ok_iff :
    store.saveFile s path = (t, .ok ()) ↔ FileSystem.save s path store.toBytes = (t, none) := by
  rw [saveFile_eq]
  cases FileSystem.save s path store.toBytes with
  | mk made fault? => cases fault? <;> simp

/-- It fails exactly if a save of its bytes does, with an error about its file. -/
theorem saveFile_eq_error_iff {error : FileError} :
    store.saveFile s path = (t, .error error) ↔
      ∃ fault, FileSystem.save s path store.toBytes = (t, some fault) ∧
        error = .unwritable path fault := by
  rw [saveFile_eq]
  cases FileSystem.save s path store.toBytes with
  | mk made fault? => cases fault? <;> simp [eq_comm]

end Systems

variable {store : Store} {t u : FileTree} {path : Text}

/-! ## Loading from a tree -/

/-- The store in a file is the one that its text describes. -/
theorem load_of_readText {text : Text} (h : t.readText path = .ok text) :
    load t path = .ok (parse text) := by
  show ofReading path (t.readText path) = _
  rw [h]
  rfl

/-- A file from which a store was loaded holds a text. -/
theorem readText_of_load {bytes : ByteArray} (hread : t.read path = .ok bytes)
    (h : load t path = .ok store) : ∃ text, t.readText path = .ok text := by
  cases htext : String.fromUTF8? bytes with
  | some s =>
    refine ⟨Text.ofString s, ?_⟩
    rw [FileTree.readText, hread, ok_bind, htext]
  | none =>
    have hfault : t.readText path = .error .invalidText := by
      rw [FileTree.readText, hread, ok_bind, htext]
    have hload : load t path = .error (.unreadable path .invalidText) :=
      load_eq_error_iff.2 ⟨.invalidText, ⟨hfault, rfl⟩, rfl⟩
    simp only [hload, reduceCtorEq] at h

/-! ## Saving in a tree -/

/-- In a tree, a store is saved by a save of its bytes. -/
theorem saveFile_eq_ok_iff_save :
    store.saveFile t path = (u, .ok ()) ↔ t.save path store.toBytes = ⟨u, none⟩ :=
  saveFile_eq_ok_iff.trans FileTree.fileSystem_save_eq_iff

/-- A file that holds a text can be saved over. -/
theorem saveFile_of_readText (store : Store) {text : Text} {loc : Location}
    (hread : t.readText path = .ok text) (hloc : t.locate? path = some loc) :
    store.saveFile t path = (t.put loc (.file store.toBytes), .ok ()) :=
  saveFile_eq_ok_iff_save.2
    (FileTree.save_of_read (FileTree.readText_eq_ok_iff.1 hread) hloc store.toBytes)

/-- The file that a store was saved to holds the text of the store. -/
theorem readText_self_of_saveFile (h : store.saveFile t path = (u, .ok ())) :
    u.readText path = .ok store.print := by
  obtain ⟨hfile, loc, hloc, hwrote⟩ := FileTree.wrote_of_save (saveFile_eq_ok_iff_save.1 h)
  exact FileTree.readText_eq_ok_iff.2 (hwrote.read_self hloc hfile)

/-- **A store that was saved is loaded** from the same path, if it is well-formed. -/
theorem load_of_saveFile (hstore : store.WellFormed) (h : store.saveFile t path = (u, .ok ())) :
    load u path = .ok store := by
  rw [load_of_readText (readText_self_of_saveFile h), parse_print hstore]

/-- **Files that hold texts** still do after a save. -/
theorem readText_of_saveFile (h : store.saveFile t path = (u, .ok ())) {other text : Text}
    (hread : t.readText other = .ok text) :
    u.readText other =
      .ok (if u.locate? other = u.locate? path then store.print else text) := by
  obtain ⟨-, loc, hloc, hwrote⟩ := FileTree.wrote_of_save (saveFile_eq_ok_iff_save.1 h)
  have hbytes := FileTree.readText_eq_ok_iff.1 hread
  obtain ⟨hfile, k, hk, -⟩ := FileTree.read_eq_ok_iff.1 hbytes
  rw [FileTree.readText_eq_ok_iff, hloc]
  split
  · next hsame => exact hwrote.read_self hsame hfile
  · next hother =>
    refine hwrote.read_other hbytes fun hsame => hother ?_
    exact hwrote.locate? hsame

/-- A path leads where it led before a save. -/
theorem locate?_of_saveFile (h : store.saveFile t path = (u, .ok ())) {other : Text} {k : Location}
    (hk : t.locate? other = some k) : u.locate? other = some k := by
  obtain ⟨-, loc, -, hwrote⟩ := FileTree.wrote_of_save (saveFile_eq_ok_iff_save.1 h)
  exact hwrote.locate? hk

/-- Two files apart are still apart after a save. -/
theorem locate?_ne_of_saveFile (h : store.saveFile t path = (u, .ok ())) {other old text : Text}
    (hother : t.readText other = .ok text) (hold : t.readText path = .ok old)
    (hdiff : t.locate? other ≠ t.locate? path) : u.locate? other ≠ u.locate? path := by
  obtain ⟨-, j, hj, -⟩ := FileTree.read_eq_ok_iff.1 (FileTree.readText_eq_ok_iff.1 hother)
  obtain ⟨-, k, hk, -⟩ := FileTree.read_eq_ok_iff.1 (FileTree.readText_eq_ok_iff.1 hold)
  rw [hj, hk] at hdiff
  rw [locate?_of_saveFile h hj, locate?_of_saveFile h hk]
  exact hdiff

end Ini.Store

namespace ConfigPaths

section Systems

variable {φ : Type u} [FileSystem φ] {s : φ} {paths : ConfigPaths} {shipped user : Ini.Store}

/-- Both stores are read exactly if each one is loaded from its path. -/
theorem read_eq_ok_iff {g l : Text} :
    read { shipped := some g, user := some l } s = .ok (shipped, user) ↔
      Ini.Store.load s g = .ok shipped ∧ Ini.Store.load s l = .ok user :=
  read_eq_ok_iff_load?

/-- The user's store is loaded from the user's path. -/
theorem load_of_read (h : paths.read s = .ok (shipped, user)) {path : Text}
    (hpath : paths.user = some path) : Ini.Store.load s path = .ok user := by
  have hload := (read_eq_ok_iff_load?.1 h).2
  rwa [hpath] at hload

/-- Both stores that are read are well-formed. -/
theorem wellFormed_of_read (h : paths.read s = .ok (shipped, user)) :
    shipped.WellFormed ∧ user.WellFormed := by
  obtain ⟨hshipped, huser⟩ := read_eq_ok_iff_load?.1 h
  exact ⟨Ini.Store.wellFormed_of_load? hshipped, Ini.Store.wellFormed_of_load? huser⟩

/-- Reading fails exactly if the file at one of the paths is there, but cannot be read. -/
theorem read_eq_error_iff : (∃ e, paths.read s = .error e) ↔
    ∃ path fault, (paths.shipped = some path ∨ paths.user = some path) ∧
      FileSystem.readText s path = .error fault ∧ fault.isMissing = false := by
  simp only [read_eq_error_iff_blames]
  exact exists_blames_iff

end Systems

end ConfigPaths

end FramePatch
