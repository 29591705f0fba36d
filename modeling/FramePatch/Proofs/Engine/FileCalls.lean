import FramePatch.Proofs.Engine.Persistence
import FramePatch.Proofs.Files.Keeping

/-!
# Calls that meet files

What becomes of an engine and of the files when a call to the engine works on files, whatever the
file system answers. A load that fails leaves the engine as it was, with the error about the first
file that is to blame, even if the other one was read. A persist leaves the engine as it was in any
case.

- `loadFiles_eq_error_iff`, `loadFiles_eq_ok_iff`: loading fails with nothing changed, or is a load
  of what the configurations count as.
- `callFiles_atomic`: calls are atomic.
-/

namespace FramePatch

universe u v w x

namespace Engine

variable {σ : Type u} {μ : Type v} {φ : Type w} [FileSystem φ]

/-! ## Loading -/

/-- **A load that fails** leaves all of the engine as it was, with the error about the first
configuration that is refused. -/
theorem loadFiles_eq_error_iff {hooks : CodeEngines σ μ} {e after : Engine σ} {s : φ}
    {paths : ConfigPaths} {session : Session} {error : FileError} :
    e.loadFiles hooks s paths session = (after, .error error) ↔
      after = e ∧ paths.Blames s error := by
  rw [loadFiles, ← ConfigPaths.read_eq_error_iff_blames]
  cases paths.read s with
  | error fault => simp [eq_comm]
  | ok stores => simp

/-- **A load that succeeds** is a load of what the configurations count as. -/
theorem loadFiles_eq_ok_iff {hooks : CodeEngines σ μ} {e after : Engine σ} {s : φ}
    {paths : ConfigPaths} {session : Session} :
    e.loadFiles hooks s paths session = (after, .ok ()) ↔
      ∃ shipped user, Ini.Store.CountsAs s paths.shipped shipped ∧
        Ini.Store.CountsAs s paths.user user ∧
        after = e.load hooks shipped.toSource user.toSource session := by
  simp only [← and_assoc, ← ConfigPaths.read_eq_ok_iff_countsAs]
  rw [loadFiles]
  cases paths.read s with
  | error fault => simp
  | ok stores =>
    obtain ⟨shipped, user⟩ := stores
    constructor
    · intro h
      exact ⟨shipped, user, rfl, (Prod.mk.inj h).1.symm⟩
    · rintro ⟨a, b, hsame, rfl⟩
      obtain ⟨rfl, rfl⟩ := Prod.mk.inj (Except.ok.inj hsame)
      rfl

/-! ## Persisting -/

/-- A persist that fails has an error about its file. Either the file could not be read and nothing
was done, or a save of the file failed. -/
theorem of_persist_eq_error {e : Engine σ} {s t : φ} {path : Text} {error : FileError}
    (h : e.persist s path = (t, .error error)) :
    (∃ fault, t = s ∧ error = .unreadable path fault) ∨
      ∃ fault bytes, FileSystem.save s path bytes = (t, some fault) ∧
        error = .unwritable path fault := by
  rw [persist] at h
  cases hload : Ini.Store.load s path with
  | error error' =>
    rw [hload] at h
    obtain ⟨rfl, herror⟩ := Prod.mk.inj h
    obtain rfl := Except.error.inj herror
    obtain ⟨fault, -, rfl⟩ := Ini.Store.load_eq_error_iff.1 hload
    exact .inl ⟨fault, rfl, rfl⟩
  | ok user =>
    rw [hload] at h
    obtain ⟨fault, hsave, herror⟩ := Ini.Store.saveFile_eq_error_iff.1 h
    exact .inr ⟨fault, _, hsave, herror⟩

/-! ## Calls -/

/-- A call to an engine that meets files. -/
inductive FileCall where
  | load (paths : ConfigPaths) (session : Session)
  | persist (path : Text)

/-- What a call leaves behind, and whether it succeeded. -/
structure FileOutcome (σ : Type u) (φ : Type w) where
  engine : Engine σ
  files : φ
  result : Except FileError Unit

/-- Makes a call on files. -/
def callFiles (hooks : CodeEngines σ μ) (e : Engine σ) (s : φ) : FileCall → FileOutcome σ φ
  | .load paths session =>
    let (after, result) := e.loadFiles hooks s paths session
    ⟨after, s, result⟩
  | .persist path =>
    let (t, result) := e.persist s path
    ⟨e, t, result⟩

/-- **Calls on files are atomic**, on any file system.

A load fails exactly if reading one of the given files is refused, other than for want of a file.
The error is about the shipped configuration if that one is refused, and about the user's otherwise;
the engine is as it was, so no hook was called. A load that succeeds does what a load of the parsed
texts does, where a configuration without a path or without a file is empty.

A persist never changes the engine. If it fails, its error is about the one file that it is given,
and whatever a file held it still holds, if the file system leaves files alone when it refuses. -/
theorem callFiles_atomic (hooks : CodeEngines σ μ) (e : Engine σ) (s : φ) :
    (∀ paths session,
      let o := e.callFiles hooks s (.load paths session)
      ((∃ error, o.result = .error error) ↔
          ∃ path fault, paths.Gives path ∧ FileSystem.Refuses s path fault) ∧
        (∀ error, o.result = .error error → paths.Blames s error ∧ o.engine = e) ∧
        (o.result = .ok () → ∃ shipped user, Ini.Store.CountsAs s paths.shipped shipped ∧
          Ini.Store.CountsAs s paths.user user ∧
          o.engine = e.load hooks shipped.toSource user.toSource session) ∧
        o.files = s) ∧
    ∀ path,
      let o := e.callFiles hooks s (.persist path)
      o.engine = e ∧ ∀ error, o.result = .error error →
        (∃ fault, error = .unreadable path fault ∨ error = .unwritable path fault) ∧
        ∀ {ι : Type x} (file : φ → ι → Option ByteArray), FileSystem.KeepsFiles file →
          ∀ i bytes, file s i = some bytes → file o.files i = some bytes := by
  constructor
  · intro paths session o
    have hcall : e.loadFiles hooks s paths session = (o.engine, o.result) := rfl
    refine ⟨?_, fun error hresult => ?_, fun hresult => ?_, rfl⟩
    · rw [← ConfigPaths.exists_blames_iff]
      constructor
      · rintro ⟨error, hresult⟩
        rw [hresult] at hcall
        exact ⟨error, (loadFiles_eq_error_iff.1 hcall).2⟩
      · rintro ⟨error, hblames⟩
        have hfails : e.loadFiles hooks s paths session = (e, .error error) :=
          loadFiles_eq_error_iff.2 ⟨rfl, hblames⟩
        exact ⟨error, (Prod.mk.inj (hcall.symm.trans hfails)).2⟩
    · rw [hresult] at hcall
      exact (loadFiles_eq_error_iff.1 hcall).symm
    · rw [hresult] at hcall
      exact loadFiles_eq_ok_iff.1 hcall
  · intro path o
    refine ⟨rfl, fun error hresult => ?_⟩
    have hcall : e.persist s path = (o.files, o.result) := rfl
    rw [hresult] at hcall
    rcases of_persist_eq_error hcall with ⟨fault, hfiles, rfl⟩ | ⟨fault, new, hsave, rfl⟩
    · exact ⟨⟨fault, .inl rfl⟩, fun file _ i bytes hfile => by rw [hfiles, hfile]⟩
    · exact ⟨⟨fault, .inr rfl⟩, fun file hkeeps i bytes hfile => hkeeps.save hsave hfile⟩

/-- Code engines that count the codes they were asked for. -/
def countingCodes : CodeEngines Nat Unit where
  loadCodes _ _ n := n + 1
  activateSynced n := n + 1

/-- Both calls refused. The shipped configuration can be read, and the user's is no text, so no code
is asked for and no row is loaded. A persist to a path that only a directory can have makes the
directory on the way and leaves both files as they are. -/
theorem callFiles_atomic_refused :
    let t := (twoFiles "[Speedhacks]\n0x80003000 = 200".toList []).put [['l']]
      (.file ⟨#[0xFF]⟩)
    let e : Engine Nat := new 0
    let loaded := e.callFiles countingCodes t
      (.load { shipped := some ['g'], user := some ['l'] } {})
    let persisted := e.callFiles countingCodes t (.persist "n/m/".toList)
    loaded.result = .error (.unreadable ['l'] .invalidText) ∧ loaded.engine = e ∧
      persisted.result = .error (.unwritable "n/m/".toList .isADirectory) ∧
      persisted.engine = e ∧ persisted.files.node? [['n']] = some .directory ∧
      ∀ l bytes, t.file? l = some bytes → persisted.files.file? l = some bytes := by
  intro t e loaded persisted
  obtain ⟨hload, hpersist⟩ := callFiles_atomic countingCodes e t
  obtain ⟨hfails, hatomic, -⟩ := hload { shipped := some ['g'], user := some ['l'] } {}
  obtain ⟨error, herror⟩ := hfails.2 ⟨['l'], .invalidText, .inr rfl, rfl, rfl⟩
  obtain ⟨hblames, hengine⟩ := hatomic error herror
  have hblamed : error = .unreadable ['l'] .invalidText := by
    cases hblames with
    | shipped hgiven hrefused =>
      -- the shipped file reads as its text
      obtain rfl := Option.some.inj hgiven
      exact nomatch hrefused.1
    | user _ hgiven hrefused =>
      obtain rfl := Option.some.inj hgiven
      rw [← Except.error.inj hrefused.1]
  have hrefused : persisted.result = .error (.unwritable "n/m/".toList .isADirectory) := rfl
  obtain ⟨hsame, hkept⟩ := hpersist "n/m/".toList
  exact ⟨hblamed ▸ herror, hengine, hrefused, hsame, rfl,
    (hkept _ hrefused).2 FileTree.file? FileTree.keepsFiles_file?⟩

end Engine

end FramePatch
