import FramePatch.Engine.Basic
import FramePatch.Ini.File

/-!
# Engines and files

The two steps in which the engine meets files: loading the shipped and the user's configuration,
and remembering the patch state in the user's one. A load that fails leaves the engine as it was;
the shipped file is read first, so its failure is the one that is reported.
-/

namespace FramePatch

universe u v w

/-- Where the configurations of a game are. A configuration without a path is empty. -/
structure ConfigPaths where
  /-- The shipped configuration, which is only read. -/
  shipped : Option Text := none
  /-- The user's configuration, which is also written. -/
  user : Option Text := none
deriving DecidableEq, Repr

namespace ConfigPaths

/-- Reads the stores of both configurations, the shipped one first. -/
def reading (paths : ConfigPaths) : FileProgram (Except FileError (Ini.Store × Ini.Store)) := do
  match ← Ini.Store.reading paths.shipped with
  | .error error => return .error error
  | .ok shipped =>
    match ← Ini.Store.reading paths.user with
    | .error error => return .error error
    | .ok user => return .ok (shipped, user)

variable {φ : Type w} [FileSystem φ]

/-- The stores of both configurations, or the error about the first one that cannot be read. -/
def read (paths : ConfigPaths) (t : φ) : Except FileError (Ini.Store × Ini.Store) :=
  (paths.reading.runOn t).2

/-- Both stores are read from the same files, which stay as they are. -/
theorem runOn_reading_eq (paths : ConfigPaths) (t : φ) :
    paths.reading.runOn t = (t, do
      let shipped ← Ini.Store.load? t paths.shipped
      let user ← Ini.Store.load? t paths.user
      return (shipped, user)) := by
  rw [reading, FileProgram.runOn_bind, Ini.Store.runOn_reading]
  cases Ini.Store.load? t paths.shipped with
  | error error => rfl
  | ok shipped =>
    simp only [FileProgram.runOn_bind, Ini.Store.runOn_reading]
    cases Ini.Store.load? t paths.user <;> rfl

theorem read_eq (paths : ConfigPaths) (t : φ) :
    paths.read t = do
      let shipped ← Ini.Store.load? t paths.shipped
      let user ← Ini.Store.load? t paths.user
      return (shipped, user) :=
  congrArg Prod.snd (paths.runOn_reading_eq t)

@[simp] theorem runOn_reading (paths : ConfigPaths) (t : φ) :
    paths.reading.runOn t = (t, paths.read t) := by
  rw [read, runOn_reading_eq]

end ConfigPaths

section Files

variable {φ : Type w} [FileSystem φ]

namespace Engine

variable {σ : Type u} {μ : Type v}

/-- Loads the configurations found in files. -/
def loadFiles (hooks : CodeEngines σ μ) (e : Engine σ) (t : φ) (paths : ConfigPaths)
    (session : Session) : Engine σ × Except FileError Unit :=
  match paths.read t with
  | .ok (shipped, user) => (e.load hooks shipped.toSource user.toSource session, .ok ())
  | .error fault => (e, .error fault)

/-- Puts the patch state into the user's configuration file. What the file holds in other sections
is kept. -/
def persist (e : Engine σ) (t : φ) (path : Text) : φ × Except FileError Unit :=
  match Ini.Store.load t path with
  | .ok user => (e.save.store user Patch.onFrameSection).saveFile t path
  | .error fault => (t, .error fault)

end Engine

end Files

end FramePatch
