import FramePatch.Proofs.CommandLine.Flags

/-!
# Command lines that are understood

How the lines of a user come to be invocations: flags that give both paths, and then a command with
its arguments.

- `Arguments.read_names`: arguments that do not look like flags are taken as they are.
- `parse_setLine`, `parse_showLine`, `parse_toggleLine`: the lines that set and show cycle counts,
  and those that toggle patches. A patch may have any name, so a name that looks like a flag is
  put after two dashes.
-/

namespace FramePatch.CommandLine

/-! ## Commands -/

/-- Arguments that are not read as flags are taken as they are, as many as there may be. -/
theorem Arguments.read_names {takesEntries : Bool} {limit : Nat} {a : Arguments} {args : List Text}
    (hnames : ∀ arg ∈ args, looksLikeFlag arg = false)
    (hlimit : a.positional.length + args.length ≤ limit) :
    Arguments.read takesEntries limit a args =
      .ok { a with positional := a.positional ++ args } := by
  induction args generalizing a with
  | nil => rw [Arguments.read, List.append_nil]
  | cons arg rest ih =>
    have hname : looksLikeFlag arg = false := hnames arg List.mem_cons_self
    have hdashes : arg ≠ ['-', '-'] := by
      rintro rfl
      exact absurd hname (by decide)
    rw [List.length_cons] at hlimit
    have hroom : a.positional.length < limit := by omega
    have hrest := @ih { a with positional := a.positional ++ [arg] }
      (fun other hother => hnames other (List.mem_cons_of_mem arg hother))
      (by simp only [List.length_append, List.length_singleton]; omega)
    rw [Arguments.read, if_neg hdashes, hname, if_neg Bool.false_ne_true, if_pos hroom, hrest,
      List.append_assoc, List.singleton_append]

namespace Command

/-- The name of the command on the speed table. -/
def speedhackName : Text := Text.ofString "speedhack"

/-- The name of the command that enables or disables patches. -/
def toggleName (enabled : Bool) : Text :=
  if enabled then Text.ofString "enable" else Text.ofString "disable"

theorem parse_speedhack (args : List Text) :
    parse speedhackName args = parseSpeedhack args := by
  rw [parse, if_neg (by decide), if_neg (by decide), if_neg (by decide), if_pos (by decide)]

theorem parse_toggleName (enabled : Bool) (args : List Text) :
    parse (toggleName enabled) args = parseToggle enabled args := by
  cases enabled with
  | true => rw [parse, if_neg (by decide), if_pos (by decide)]
  | false => rw [parse, if_neg (by decide), if_neg (by decide), if_pos (by decide)]

end Command

/-! ## Whole lines -/

/-- The line that sets a row of the speed table. -/
def setLine (flags : List Text) (address cycles : Text) : List Text :=
  flags ++ [Command.speedhackName, address, cycles]

/-- The line that shows the cycle count of an address. -/
def showLine (flags : List Text) (address : Text) : List Text :=
  flags ++ [Command.speedhackName, address]

/-- A patch name as an argument: a name that would be read as a flag comes after two dashes. -/
def nameArguments (name : Text) : List Text :=
  if looksLikeFlag name then [['-', '-'], name] else [name]

/-- The line that enables or disables the patches of a name. -/
def toggleLine (flags : List Text) (name : Text) (enabled : Bool) : List Text :=
  flags ++ Command.toggleName enabled :: nameArguments name

section Lines

variable {environment : Text → Option Text} {flags : List Text} {paths : ConfigPaths}
  (hflags : GivesPaths environment flags paths)

include hflags

theorem parse_setLine {address cycles : Text} (ha : looksLikeFlag address = false)
    (hc : looksLikeFlag cycles = false) :
    Invocation.parse (setLine flags address cycles) environment =
      .ok ⟨paths, .setCycles address cycles⟩ := by
  have hargs : Arguments.read false 2 {} [address, cycles] =
      .ok { positional := [address, cycles] } :=
    Arguments.read_names (List.forall_mem_cons.2 ⟨ha, List.forall_mem_singleton.2 hc⟩)
      (Nat.le_refl 2)
  rw [setLine, hflags _ _ (by decide), Command.parse_speedhack, Command.parseSpeedhack, hargs]
  rfl

theorem parse_showLine {address : Text} (ha : looksLikeFlag address = false) :
    Invocation.parse (showLine flags address) environment =
      .ok ⟨paths, .showCycles address⟩ := by
  have hargs : Arguments.read false 2 {} [address] = .ok { positional := [address] } :=
    Arguments.read_names (List.forall_mem_singleton.2 ha) (Nat.le_succ 1)
  rw [showLine, hflags _ _ (by decide), Command.parse_speedhack, Command.parseSpeedhack, hargs]
  rfl

/-- Whatever the name is, its line toggles the patches of that name. -/
theorem parse_toggleLine (name : Text) (enabled : Bool) :
    Invocation.parse (toggleLine flags name enabled) environment =
      .ok ⟨paths, .toggle name enabled⟩ := by
  have hargs : Arguments.read false 1 {} (nameArguments name) = .ok { positional := [name] } := by
    rw [nameArguments]
    cases hname : looksLikeFlag name with
    | true => rfl
    | false => exact Arguments.read_names (List.forall_mem_singleton.2 hname) (Nat.le_refl 1)
  have hcommand : looksLikeFlag (Command.toggleName enabled) = false := by
    cases enabled <;> decide
  rw [toggleLine, hflags _ _ hcommand, Command.parse_toggleName, Command.parseToggle, hargs]
  rfl

end Lines

end FramePatch.CommandLine
