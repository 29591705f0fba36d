import FramePatch.CommandLine.Arguments
import FramePatch.Text.Quoted

/-!
# Running commands

What a command comes to is decided on the two stores alone: a text to print, a failure, or an edit
of the user's store and a text to print once it is saved. `Invocation.program` does the rest: it
reads both configurations, and it reads the user's one again before it edits and saves it, so that
the sections that are not edited are written back as they are in the file.
-/

namespace FramePatch.CommandLine

universe u

/-- Why a command failed. -/
inductive Failure where
  | loading (error : FileError)
  /-- The user's configuration could be read the first time, but not the second. -/
  | rereading (error : FileError)
  | saving (path : Text) (error : FileError)
  | noPathForPatches
  | noPathForSpeedTable
  | unknownPatch (name : Text)
  | badAddress (literal : Text)
  | badCycles (literal : Text)
deriving DecidableEq, Repr

/-- What a command comes to. -/
inductive Plan where
  | print (output : Text)
  | fail (failure : Failure)
  | save (path : Text) (edit : Ini.Store → Ini.Store) (output : Text)

namespace Command

/-! ## Output -/

/-- The text of a list of lines, each ended by a newline. -/
def unlines (lines : List Text) : Text := lines.flatMap fun line => line ++ ['\n']

/-- How many entries, in words. -/
def entryCount : Nat → Text
  | 1 => Text.ofString "1 entry"
  | n => Numeral.decimal n ++ Text.ofString " entries"

/-- The line of a patch in a listing. -/
def patchLine (p : Patch) : Text :=
  (if p.enabled then Text.ofString "[x] " else Text.ofString "[ ] ") ++ p.name ++
    (if p.userDefined then Text.ofString " (user)" else []) ++ [':', ' '] ++
    entryCount p.entries.length

/-- The line of an entry in a listing. -/
def entryLine (e : Entry) : Text := [' ', ' ', ' ', ' '] ++ e.encode

/-- The lines of a patch in a listing, with or without those of its entries. -/
def patchLines (entries : Bool) (p : Patch) : List Text :=
  patchLine p :: if entries then p.entries.map entryLine else []

/-- The line of a row of the speed table. -/
def cyclesLine (r : UInt32 × UInt32) : Text :=
  Ini.rowLine (Literal.hex r.1) (Literal.decimal r.2)

/-! ## Plans -/

/-- Saves the patches of a name, enabled or disabled, in the user's store. -/
def planToggle (engine : Engine Unit) (userPath : Option Text) (name : Text) (enabled : Bool) :
    Plan :=
  match userPath with
  | none => .fail .noPathForPatches
  | some path =>
    match engine.setEnabled name enabled with
    | (_, false) => .fail (.unknownPatch name)
    | (engine, true) =>
      let word := if enabled then Text.ofString "enabled " else Text.ofString "disabled "
      .save path (engine.save.store · Patch.onFrameSection) (unlines [word ++ name])

/-- Saves a row of the speed table in the user's store. -/
def planSetCycles (userPath : Option Text) (address cycles : UInt32) : Plan :=
  match userPath with
  | none => .fail .noPathForSpeedTable
  | some path =>
    .save path
      (·.set SpeedTable.speedhacksSection (Literal.hex address) (Literal.decimal cycles))
      (unlines [cyclesLine (address, cycles)])

/-- What a command comes to, given the store of each configuration. -/
def plan (command : Command) (paths : ConfigPaths) (shipped user : Ini.Store) : Plan :=
  let engine := (Engine.new ()).load (CodeEngines.none (μ := Unit)) shipped.toSource
    user.toSource {}
  match command with
  | list entries => .print (unlines (engine.patches.flatMap (patchLines entries)))
  | toggle name enabled => planToggle engine paths.user name enabled
  | showTable => .print (unlines (engine.speedTable.rows.map cyclesLine))
  | showCycles address =>
    match Literal.read? address with
    | none => .fail (.badAddress address)
    | some a => .print (unlines [Literal.decimal (engine.cycles a)])
  | setCycles address cycles =>
    match Literal.read? address, Literal.read? cycles with
    | none, _ => .fail (.badAddress address)
    | some _, none => .fail (.badCycles cycles)
    | some a, some c => planSetCycles paths.user a c

end Command

namespace Invocation

/-- A command on files. The result is what it prints. The edit is done to the user's store as it is
read the second time, which is what the first reading gave unless the file was changed meanwhile. -/
def program (i : Invocation) : FileProgram (Except Failure Text) := do
  match ← i.paths.reading with
  | .error error => return .error (.loading error)
  | .ok (shipped, user) =>
    match i.command.plan i.paths shipped user with
    | .print output => return .ok output
    | .fail failure => return .error failure
    | .save path edit output =>
      match ← Ini.Store.reading i.paths.user with
      | .error error => return .error (.rereading error)
      | .ok user =>
        match ← (edit user).saving path with
        | .ok () => return .ok output
        | .error error => return .error (.saving path error)

/-- Runs a command on a file system. -/
def run {φ : Type u} [FileSystem φ] (i : Invocation) (s : φ) : φ × Except Failure Text :=
  i.program.runOn s

end Invocation

end FramePatch.CommandLine
