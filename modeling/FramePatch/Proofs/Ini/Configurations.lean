import FramePatch.Engine.Files
import FramePatch.Proofs.Files.Tree

/-!
# Configurations that can be read, and others

What comes of reading configurations from any file system. The system may answer each reading as it
likes; what counts is whether it refused for want of a file or for another reason.

- `Refuses`: a reading that failed for another reason.
- `CountsAs`: what a configuration counts as. Without a path and without a file it is empty.
- `Blames`: the error of reading two configurations. It is about the shipped one, unless that one
  could be read.
- `load?_eq_ok_iff`, `load?_eq_error_iff`: loading a store is one or the other.
- `read_eq_ok_iff_countsAs`, `read_eq_error_iff_blames`: so is reading both.
-/

namespace FramePatch

universe u

variable {φ : Type u} [FileSystem φ]

/-- The file at a path cannot be read, for a reason other than that there is none. -/
def FileSystem.Refuses (s : φ) (path : Text) (fault : Fault) : Prop :=
  FileSystem.readText s path = .error fault ∧ fault.isMissing = false

namespace Ini.Store

variable {s : φ} {store : Store} {error : FileError}

/-- What a configuration counts as, read from where it may be. -/
inductive CountsAs (s : φ) : Option Text → Store → Prop
  | noPath : CountsAs s none empty
  | noFile {path : Text} {fault : Fault} (reading : FileSystem.readText s path = .error fault)
      (missing : fault.isMissing) : CountsAs s (some path) empty
  | text {path text : Text} (reading : FileSystem.readText s path = .ok text) :
      CountsAs s (some path) (parse text)

/-- A store that is loaded is what the configuration counts as. -/
theorem load?_eq_ok_iff {path? : Option Text} :
    load? s path? = .ok store ↔ CountsAs s path? store := by
  constructor
  · intro h
    cases path? with
    | none => exact Except.ok.inj h ▸ .noPath
    | some path =>
      rw [load?_some, load_eq] at h
      cases hread : FileSystem.readText s path with
      | ok text =>
        rw [hread] at h
        exact Except.ok.inj h ▸ .text hread
      | error fault =>
        rw [hread, ofReading] at h
        split at h
        · next hmissing => exact Except.ok.inj h ▸ .noFile hread hmissing
        · exact nomatch h
  · rintro (_ | ⟨hread, hmissing⟩ | hread)
    · rfl
    · rw [load?_some, load_eq, hread, ofReading, if_pos hmissing]
    · rw [load?_some, load_eq, hread]
      rfl

/-- Loading a store fails exactly if reading its file is refused, with an error about the file. -/
theorem load_eq_error_iff {path : Text} : load s path = .error error ↔
    ∃ fault, FileSystem.Refuses s path fault ∧ error = .unreadable path fault := by
  rw [load_eq]
  cases hread : FileSystem.readText s path with
  | ok text => simp [ofReading, FileSystem.Refuses, hread]
  | error fault =>
    cases hmissing : fault.isMissing with
    | true => simp [ofReading, FileSystem.Refuses, hread, hmissing]
    | false =>
      rw [ofReading, hmissing]
      constructor
      · intro h
        exact ⟨fault, ⟨hread, hmissing⟩, (Except.error.inj h).symm⟩
      · rintro ⟨fault', ⟨hread', -⟩, rfl⟩
        rw [Except.error.inj (hread.symm.trans hread')]
        rfl

/-- The same, where there may be no path. -/
theorem load?_eq_error_iff {path? : Option Text} : load? s path? = .error error ↔
    ∃ path fault, path? = some path ∧ FileSystem.Refuses s path fault ∧
      error = .unreadable path fault := by
  cases path? with
  | none => simp [load?_none]
  | some path => simp [load?_some, load_eq_error_iff]

end Ini.Store

namespace ConfigPaths

variable {s : φ} {paths : ConfigPaths} {shipped user : Ini.Store} {error : FileError}

/-- A path is that of one of the configurations. -/
def Gives (paths : ConfigPaths) (path : Text) : Prop :=
  paths.shipped = some path ∨ paths.user = some path

/-- The errors of reading both configurations: the first one that is refused is blamed. -/
inductive Blames (s : φ) (paths : ConfigPaths) : FileError → Prop
  | shipped {path : Text} {fault : Fault} (given : paths.shipped = some path)
      (refused : FileSystem.Refuses s path fault) : Blames s paths (.unreadable path fault)
  | user {path : Text} {fault : Fault}
      (readable : ∀ other fault, paths.shipped = some other → ¬FileSystem.Refuses s other fault)
      (given : paths.user = some path) (refused : FileSystem.Refuses s path fault) :
      Blames s paths (.unreadable path fault)

/-- Both stores are read exactly if each one is loaded. -/
theorem read_eq_ok_iff_load? : paths.read s = .ok (shipped, user) ↔
    Ini.Store.load? s paths.shipped = .ok shipped ∧ Ini.Store.load? s paths.user = .ok user := by
  simp only [read_eq, bind_eq_ok_iff]
  constructor
  · rintro ⟨a, hg, b, hl, hpair⟩
    obtain ⟨rfl, rfl⟩ := Prod.mk.inj (Except.ok.inj hpair)
    exact ⟨hg, hl⟩
  · rintro ⟨hg, hl⟩
    exact ⟨shipped, hg, user, hl, rfl⟩

/-- **What is read** is what both configurations count as. -/
theorem read_eq_ok_iff_countsAs : paths.read s = .ok (shipped, user) ↔
    Ini.Store.CountsAs s paths.shipped shipped ∧ Ini.Store.CountsAs s paths.user user := by
  rw [read_eq_ok_iff_load?, Ini.Store.load?_eq_ok_iff, Ini.Store.load?_eq_ok_iff]

/-- **Reading fails** with the error about the first configuration that is refused. -/
theorem read_eq_error_iff_blames : paths.read s = .error error ↔ paths.Blames s error := by
  rw [read_eq]
  constructor
  · intro h
    cases hshipped : Ini.Store.load? s paths.shipped with
    | error first =>
      obtain ⟨path, fault, hgiven, hrefused, rfl⟩ := Ini.Store.load?_eq_error_iff.1 hshipped
      rw [hshipped] at h
      exact Except.error.inj h ▸ .shipped hgiven hrefused
    | ok store =>
      rw [hshipped, ok_bind] at h
      cases huser : Ini.Store.load? s paths.user with
      | error second =>
        obtain ⟨path, fault, hgiven, hrefused, rfl⟩ := Ini.Store.load?_eq_error_iff.1 huser
        rw [huser] at h
        refine Except.error.inj h ▸ .user (fun other fault' hother hfails => ?_) hgiven hrefused
        have hfailed := Ini.Store.load?_eq_error_iff.2 ⟨other, fault', hother, hfails, rfl⟩
        exact nomatch hshipped.symm.trans hfailed
      | ok other =>
        rw [huser] at h
        exact nomatch h
  · rintro (⟨hgiven, hrefused⟩ | ⟨hreadable, hgiven, hrefused⟩)
    · rw [Ini.Store.load?_eq_error_iff.2 ⟨_, _, hgiven, hrefused, rfl⟩]
      rfl
    · have huser := Ini.Store.load?_eq_error_iff.2 ⟨_, _, hgiven, hrefused, rfl⟩
      cases hshipped : Ini.Store.load? s paths.shipped with
      | error first =>
        obtain ⟨path, fault, hfirst, hfails, -⟩ := Ini.Store.load?_eq_error_iff.1 hshipped
        exact absurd hfails (hreadable path fault hfirst)
      | ok store =>
        rw [ok_bind, huser]
        rfl

/-- Something is to blame exactly if a file at one of the paths is refused. -/
theorem exists_blames_iff : (∃ error, paths.Blames s error) ↔
    ∃ path fault, paths.Gives path ∧ FileSystem.Refuses s path fault := by
  constructor
  · rintro ⟨_, ⟨hgiven, hrefused⟩ | ⟨-, hgiven, hrefused⟩⟩
    · exact ⟨_, _, .inl hgiven, hrefused⟩
    · exact ⟨_, _, .inr hgiven, hrefused⟩
  · rintro ⟨path, fault, hgiven | hgiven, hrefused⟩
    · exact ⟨_, .shipped hgiven hrefused⟩
    · by_cases hfirst : ∃ other fault', paths.shipped = some other ∧
          FileSystem.Refuses s other fault'
      · obtain ⟨other, fault', hother, hfails⟩ := hfirst
        exact ⟨_, .shipped hother hfails⟩
      · exact ⟨_, .user (fun other fault' hother hfails => hfirst ⟨other, fault', hother, hfails⟩)
          hgiven hrefused⟩

end ConfigPaths

end FramePatch
