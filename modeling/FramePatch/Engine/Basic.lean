import FramePatch.Engine.Hooks
import FramePatch.Guest.Gate
import FramePatch.Patch.Apply
import FramePatch.Patch.Save
import FramePatch.SpeedTable

/-!
# The patch engine

The patches and the speed table of one running game, beside whatever code engines the host has.
Loading builds both from scratch. One frame applies the enabled patches, if the gate lets it:
built-in fixups run first, so that patches and codes can override them, and active codes run
last. A session that overrides the user's codes suppresses patches and active codes.
-/

namespace FramePatch

universe u v

/-- What a shared session asks of the engine. -/
structure Session where
  /-- The session overrides the user's patches and active codes. -/
  overrideActive : Bool := false
  /-- The session has agreed on codes, which are used instead of the user's. -/
  codeSync : Bool := false
deriving DecidableEq, Repr

namespace Session

/-- Whether codes are taken from the session. An active override leaves none to take. -/
def usesSyncedCodes (s : Session) : Bool := s.codeSync && !s.overrideActive

end Session

/-- The state of the engine, with code engines in state `σ`. -/
structure Engine (σ : Type u) where
  patches : List Patch := []
  speedTable : SpeedTable := .empty
  codes : σ

namespace Engine

variable {σ : Type u} {μ : Type v}

/-- The engine before anything is loaded. -/
def new (codes : σ) : Engine σ := { codes }

/-! ## Life of a game -/

/-- The engine with everything that the two configurations define. -/
def load (hooks : CodeEngines σ μ) (e : Engine σ) (shipped user : Source) (session : Session) :
    Engine σ where
  patches := Patch.merge Patch.onFrameSection shipped user
  speedTable := SpeedTable.ofSources SpeedTable.speedhacksSection [shipped, user]
  codes :=
    if session.usesSyncedCodes then hooks.activateSynced e.codes
    else hooks.loadCodes shipped user e.codes

/-- The engine with everything dropped. -/
def shutdown (hooks : CodeEngines σ μ) (e : Engine σ) : Engine σ where
  patches := []
  speedTable := .empty
  codes := hooks.shutdown e.codes

/-- Drops everything and loads again. -/
def reload (hooks : CodeEngines σ μ) (e : Engine σ) (shipped user : Source) (session : Session) :
    Engine σ :=
  (e.shutdown hooks).load hooks shipped user session

/-! ## Patches and speed rows -/

/-- Enables or disables the patches of a name, and tells whether there are any. -/
def setEnabled (e : Engine σ) (name : Text) (enabled : Bool) : Engine σ × Bool :=
  ({ e with patches := Patch.setEnabled name enabled e.patches }, e.patches.any (·.name == name))

/-- The lines that the user's configuration needs to remember the patches. -/
def save (e : Engine σ) : Patch.SectionLines := Patch.save e.patches

/-- The extra cycles of the instruction at an address. -/
def cycles (e : Engine σ) (address : UInt32) : UInt32 := e.speedTable.cycles address

/-! ## Frames -/

/-- Runs the active stages of a frame in which the gate has let memory be patched. -/
def patchMemory [GuestMemory μ] (hooks : CodeEngines σ μ) (e : Engine σ) (m : μ)
    (session : Session) : Engine σ × μ :=
  let (codes, m) := hooks.fixedFunctions e.codes m
  let (codes, m) := hooks.codeHandler codes m
  if session.overrideActive then ({ e with codes }, m)
  else
    let (codes, m) := hooks.activeCodes codes (Patch.applyAll e.patches m)
    ({ e with codes }, m)

/-- Runs one frame, and tells whether the gate let it. Where it did not, nothing is touched and
the host should try again a little later. -/
def frame [GuestMemory μ] (hooks : CodeEngines σ μ) (e : Engine σ) (cpu : Cpu) (m : μ)
    (session : Session) : Engine σ × μ × Bool :=
  if Gate.isSafe cpu m then
    let (e, m) := e.patchMemory hooks m session
    (e, m, true)
  else (e, m, false)

end Engine

end FramePatch
