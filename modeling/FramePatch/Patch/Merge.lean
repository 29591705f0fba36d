import FramePatch.Entry.Line
import FramePatch.Patch.Basic
import FramePatch.Source

/-!
# Merging two configurations into a patch list

A section defines patches line by line: a line `$NAME` opens a patch, and the entry lines after it
belong to that patch. Two companion sections, `_Enabled` and `_Disabled`, hold lines `$NAME` that
turn patches on and off; of the two, turning off comes last. The shipped configuration is read
first, what it leaves enabled becomes the default, and the user's configuration then adds its own
patches and overrides the state of all.

Two rules about the end of a patch differ on purpose. A patch that a later `$` line closes is kept
even without entries; the last patch of a section is kept only if it has one. A patch without a
name is never kept, and neither are the entries before the first `$` line.
-/

namespace FramePatch

namespace Patch

/-- The default section of patches that are applied every frame. -/
def onFrameSection : Text := ['O', 'n', 'F', 'r', 'a', 'm', 'e']

/-- The companion section that names the patches to turn on. -/
def enabledSection (name : Text) : Text := name ++ ['_', 'E', 'n', 'a', 'b', 'l', 'e', 'd']

/-- The companion section that names the patches to turn off. -/
def disabledSection (name : Text) : Text := name ++ ['_', 'D', 'i', 's', 'a', 'b', 'l', 'e', 'd']

/-- The name on a line that starts with `$`. -/
def headerName? (line : Text) : Option Text := Text.stripStart? '$' line

/-! ## Definitions -/

/-- The patches closed so far, and the one that entry lines go to. -/
structure Definitions where
  closed : List Patch := []
  current : Patch := {}

namespace Definitions

/-- Closes the patch that is open and opens one with the given name. -/
def openPatch (d : Definitions) (name : Text) (userDefined : Bool) : Definitions where
  closed := if d.current.name = [] then d.closed else d.closed ++ [d.current]
  current := { name, userDefined }

/-- Gives an entry to the patch that is open. -/
def addEntry (d : Definitions) (e : Entry) : Definitions :=
  { d with current := { d.current with entries := d.current.entries ++ [e] } }

/-- Takes in one line; a line that is neither a header nor an entry is passed over. -/
def step (userDefined : Bool) (d : Definitions) (line : Text) : Definitions :=
  match headerName? line with
  | some name => d.openPatch name userDefined
  | none => ((Entry.decode? line).map d.addEntry).getD d

/-- All patches, at the end of a section. -/
def patches (d : Definitions) : List Patch :=
  if d.current.name = [] ∨ d.current.entries = [] then d.closed else d.closed ++ [d.current]

end Definitions

/-- The patches that the lines of a section define. -/
def define (userDefined : Bool) (lines : List Text) : List Patch :=
  (lines.foldl (Definitions.step userDefined) {}).patches

/-! ## Overrides -/

/-- Enables or disables the patches named by the `$` lines among `lines`. -/
def override (enabled : Bool) (lines : List Text) (patches : List Patch) : List Patch :=
  (lines.filterMap headerName?).foldl (fun ps name => setEnabled name enabled ps) patches

/-- Applies the two companion sections of a source, the one that turns off last. -/
def overrideBy (source : Source) (name : Text) (patches : List Patch) : List Patch :=
  override false (source.lines (disabledSection name))
    (override true (source.lines (enabledSection name)) patches)

/-! ## Both sources -/

/-- The patch list of a section in the shipped configuration and the user's. -/
def merge (name : Text) (shipped user : Source) : List Patch :=
  let defaults := (overrideBy shipped name (define false (shipped.lines name))).map asShipped
  overrideBy user name (defaults ++ define true (user.lines name))

end Patch

end FramePatch
