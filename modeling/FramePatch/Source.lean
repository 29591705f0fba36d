import FramePatch.Ini.Row

/-!
# Configuration sources

What the rest of the library asks of a configuration: the effective lines of a section and its
rows. Every ini store is a source; nothing here depends on where the answers come from.
-/

namespace FramePatch

/-- A configuration to read from, section by section. -/
structure Source where
  /-- The effective lines of a section; none if there is no such section. -/
  lines : Text → List Text
  /-- The `key = value` rows of a section, in their order. -/
  rows : Text → List (Text × Text)

namespace Source

/-- The source without sections. -/
def empty : Source := ⟨fun _ => [], fun _ => []⟩

end Source

/-- A store as a source. -/
def Ini.Store.toSource (store : Ini.Store) : Source := ⟨store.lines, store.rows⟩

theorem Ini.Store.toSource_empty : Ini.Store.empty.toSource = Source.empty := rfl

end FramePatch
