import FramePatch.Guest.Memory
import FramePatch.Source

/-!
# Code engines

Engines that run codes of their own beside the patches: built-in fixups, a code handler and a list
of active codes. An engine for patches needs nothing from them but six hooks, each a function on
the state `σ` of the code engines and, where guest code runs, on a memory `μ`. A hook that is left
out does nothing.
-/

namespace FramePatch

universe u v

/-- The hooks of code engines with state `σ`, run against memories `μ`. -/
structure CodeEngines (σ : Type u) (μ : Type v) where
  /-- Loads the codes of the shipped and the user's configuration. -/
  loadCodes : Source → Source → σ → σ := fun _ _ s => s
  /-- Takes the codes that a shared session has agreed on. -/
  activateSynced : σ → σ := id
  /-- Runs the built-in fixups. -/
  fixedFunctions : σ → μ → σ × μ := Prod.mk
  /-- Runs the code handler. -/
  codeHandler : σ → μ → σ × μ := Prod.mk
  /-- Runs the active codes. -/
  activeCodes : σ → μ → σ × μ := Prod.mk
  /-- Drops all codes. -/
  shutdown : σ → σ := id

namespace CodeEngines

/-- The absence of code engines. -/
def none {μ : Type v} : CodeEngines Unit μ := {}

end CodeEngines

end FramePatch
