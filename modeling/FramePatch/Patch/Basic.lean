import FramePatch.Entry.Basic

/-!
# Patches

A patch is a named list of entries that is applied as a unit while it is enabled. A patch comes
from the shipped configuration or from the user's; `defaultEnabled` is the state that the shipped
configuration gives it, so a patch whose state differs from it is *overridden* and has to be
remembered when the user's configuration is saved.

Patches are addressed by name. Several patches may share one, and an operation by name reaches all
of them.
-/

namespace FramePatch

/-- A named list of entries. -/
structure Patch where
  name : Text := []
  entries : List Entry := []
  enabled : Bool := false
  /-- The state that the shipped configuration gives, before the user's overrides. -/
  defaultEnabled : Bool := false
  /-- Whether the user's configuration defines the patch. -/
  userDefined : Bool := false
deriving DecidableEq, Repr

namespace Patch

/-- Whether the state differs from the shipped one. -/
def isOverridden (p : Patch) : Bool := p.enabled != p.defaultEnabled

/-- The patch with its present state as the shipped one. -/
def asShipped (p : Patch) : Patch := { p with defaultEnabled := p.enabled }

/-- The patches with every one called `name` enabled or disabled. -/
def setEnabled (name : Text) (enabled : Bool) (patches : List Patch) : List Patch :=
  patches.map fun p => if p.name = name then { p with enabled } else p

end Patch

end FramePatch
