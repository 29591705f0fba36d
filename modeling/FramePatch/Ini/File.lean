import FramePatch.Files.Program
import FramePatch.Ini.Format

/-!
# Ini files

Stores read from and written to files. A file that is not there reads as the store without
sections, so a configuration need not exist before it is saved for the first time.

* `runOn_reading`: reading a store leaves the files as they are.
* `saveFile_eq`: a store is saved by a save of its bytes.
-/

namespace FramePatch.Ini.Store

universe u

variable {φ : Type u} [FileSystem φ]

/-- The store that a reading of a file gives. -/
def ofReading (path : Text) : Except Fault Text → Except FileError Store
  | .ok text => .ok (parse text)
  | .error fault => if fault.isMissing then .ok empty else .error (.unreadable path fault)

/-- Reads the store of a configuration. Without a path it is empty. -/
def reading : Option Text → FileProgram (Except FileError Store)
  | some path => .readText path fun answer => .done (ofReading path answer)
  | none => .done (.ok empty)

/-- The store in the file at a path, where there may be no path. -/
def load? (t : φ) (path? : Option Text) : Except FileError Store := ((reading path?).runOn t).2

/-- The store in the file at a path. -/
def load (t : φ) (path : Text) : Except FileError Store := load? t (some path)

/-- Reading a store leaves the files as they are. -/
@[simp] theorem runOn_reading (path? : Option Text) (t : φ) :
    (reading path?).runOn t = (t, load? t path?) := by
  cases path? <;> rfl

theorem load?_none (t : φ) : load? t none = .ok empty := rfl

theorem load?_some (t : φ) (path : Text) : load? t (some path) = load t path := rfl

/-- The store in a file is up to the text of the file. -/
theorem load_eq (t : φ) (path : Text) :
    load t path = ofReading path (FileSystem.readText t path) := rfl

/-- The bytes of a store's file. -/
def toBytes (store : Store) : ByteArray := (Text.toStr store.print).toUTF8

/-- Writes a store to the file at a path. -/
def saving (store : Store) (path : Text) : FileProgram (Except FileError Unit) := do
  match ← .save path store.toBytes with
  | none => return .ok ()
  | some fault => return .error (.unwritable path fault)

/-- Writes a store to the file at a path. The directories made on the way stay made if the file
cannot be written. -/
def saveFile (store : Store) (t : φ) (path : Text) : φ × Except FileError Unit :=
  (store.saving path).runOn t

/-- A store is saved by a save of its bytes. -/
theorem saveFile_eq (store : Store) (t : φ) (path : Text) :
    store.saveFile t path =
      match FileSystem.save t path store.toBytes with
      | (u, none) => (u, .ok ())
      | (u, some fault) => (u, .error (.unwritable path fault)) := by
  rw [saveFile, saving, FileProgram.runOn_bind, FileSystem.save]
  cases (FileProgram.save path store.toBytes).runOn t with
  | mk u fault? => cases fault? <;> rfl

end FramePatch.Ini.Store
