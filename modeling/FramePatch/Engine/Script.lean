import FramePatch.Engine.Hooks

/-!
# Scripted code engines

Code engines that follow a script and write down what was asked of them. They stand in for a
host's engines wherever it matters which hook ran, in which order, and what it saw.
-/

namespace FramePatch.Script

universe u

/-- One access to guest memory that a script makes. -/
inductive Action where
  | write (width : Width) (address value : UInt32)
  | read (address : UInt32)
deriving DecidableEq, Repr

/-- The accesses of each hook that runs against memory. -/
structure Actions where
  fixedFunctions : List Action := []
  codeHandler : List Action := []
  activeCodes : List Action := []
deriving DecidableEq, Repr

/-- What scripted engines write down: a hook that was called, or a word that was read. -/
inductive Event where
  | loadedCodes
  | activatedSynced
  | shutDown
  | ranFixedFunctions
  | ranCodeHandler
  | ranActiveCodes
  | sawWord (address value : UInt32)
deriving DecidableEq, Repr

/-- The state of scripted engines: the events so far and the lines of the codes in use. -/
structure Journal where
  events : List Event := []
  codes : List Text := []
deriving DecidableEq, Repr

namespace Journal

/-- The journal with one more event. -/
def note (j : Journal) (e : Event) : Journal := { j with events := j.events ++ [e] }

end Journal

/-- The section that codes are loaded from. -/
def codeSection : Text := ['G', 'e', 'c', 'k', 'o']

variable {μ : Type u} [GuestMemory μ]

/-- Performs one access. -/
def perform (s : Journal × μ) : Action → Journal × μ
  | .write width address value => (s.1, GuestMemory.write s.2 width address value)
  | .read address => (s.1.note (.sawWord address (GuestMemory.read32 s.2 address)), s.2)

/-- Notes an event and performs accesses in their order. -/
def run (event : Event) (actions : List Action) (j : Journal) (m : μ) : Journal × μ :=
  actions.foldl perform (j.note event, m)

/-- The code engines that follow a script. -/
def engines (script : Actions) : CodeEngines Journal μ where
  loadCodes shipped user j :=
    { j.note .loadedCodes with codes := shipped.lines codeSection ++ user.lines codeSection }
  activateSynced j := j.note .activatedSynced
  fixedFunctions := run .ranFixedFunctions script.fixedFunctions
  codeHandler := run .ranCodeHandler script.codeHandler
  activeCodes := run .ranActiveCodes script.activeCodes
  shutdown j := { j.note .shutDown with codes := [] }

end FramePatch.Script
