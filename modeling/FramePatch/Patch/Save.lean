import FramePatch.Patch.Merge
import FramePatch.Ini.Store

/-!
# Saving a patch list

What the user's configuration has to say about a patch list: the definitions of the user's own
patches, and the names of the patches whose state differs from the shipped one.
-/

namespace FramePatch.Patch

/-- The line that names a patch. -/
def headerLine (p : Patch) : Text := '$' :: p.name

/-- The line that names a patch, then its entries. -/
def definitionLines (p : Patch) : List Text := p.headerLine :: p.entries.map Entry.encode

/-- The lines to be stored in a section and in its two companions. -/
structure SectionLines where
  definitions : List Text := []
  enabled : List Text := []
  disabled : List Text := []
deriving DecidableEq, Repr

/-- The lines that remember a patch list. -/
def save (patches : List Patch) : SectionLines where
  definitions := (patches.filter (·.userDefined)).flatMap definitionLines
  enabled := (patches.filter fun p => p.isOverridden && p.enabled).map headerLine
  disabled := (patches.filter fun p => p.isOverridden && !p.enabled).map headerLine

/-- Puts the lines into a store, in place of what the three sections held. -/
def SectionLines.store (l : SectionLines) (store : Ini.Store) (name : Text) : Ini.Store :=
  ((store.setLines (enabledSection name) l.enabled).setLines
    (disabledSection name) l.disabled).setLines name l.definitions

end FramePatch.Patch
