import FramePatch.Engine.Files

/-!
# Command lines

The grammar of the command line: flags that take a value, then a command with arguments of its
own. A flag that is not given may come from an environment variable. Reading stops at the first
argument that decides the outcome, either because it asks for information (help, version) or
because the command line is misused.

One case needs care. A flag's value that stands in an argument of its own is checked only when
reading meets the next flag, or after the command has been read; so a request for help that
follows the command comes before a complaint about the last value in front of it.
-/

namespace FramePatch.CommandLine

/-- Why a command line leads to no command. -/
inductive Stop where
  | information
  | misuse
deriving DecidableEq, Repr

/-- What the program is asked to do. Addresses and counts are still literals. -/
inductive Command where
  | list (entries : Bool)
  | toggle (name : Text) (enabled : Bool)
  | showTable
  | showCycles (address : Text)
  | setCycles (address cycles : Text)
deriving DecidableEq, Repr

/-- A command with the paths it works on. -/
structure Invocation where
  paths : ConfigPaths
  command : Command
deriving DecidableEq, Repr

/-! ## Flags -/

/-- The flags that stand before the command. Each takes a value. -/
inductive Flag where
  | shippedPath
  | userPath
  | logLevel
deriving DecidableEq, Repr

namespace Flag

def all : List Flag := [shippedPath, userPath, logLevel]

/-- How a flag is written. -/
def name : Flag → Text
  | shippedPath => Text.ofString "--global-ini"
  | userPath => Text.ofString "--local-ini"
  | logLevel => Text.ofString "--log-level"

/-- The environment variable that stands in for a flag. -/
def variableName : Flag → Text
  | shippedPath => Text.ofString "AERO_PATCH_GLOBAL_INI"
  | userPath => Text.ofString "AERO_PATCH_LOCAL_INI"
  | logLevel => Text.ofString "AERO_PATCH_LOG_LEVEL"

/-- Whether a flag can have a value. A path is never empty. -/
def accepts : Flag → Text → Bool
  | logLevel, _ => true
  | _, value => value != []

/-- The flag that is written in a given way. -/
def ofName? (t : Text) : Option Flag := all.find? (·.name == t)

end Flag

/-- The flags given so far, each with its value. -/
abbrev Given := List (Flag × Text)

namespace Given

/-- Takes in a flag. It must not have been given before, and it has to accept the value. -/
def add (given : Given) (flag : Flag) (value : Text) : Except Stop Given :=
  if (given.lookup flag).isSome || !flag.accepts value then .error .misuse
  else .ok (given ++ [(flag, value)])

/-- Takes in a flag whose value has not been checked yet, if there is one. -/
def settle (given : Given) : Option (Flag × Text) → Except Stop Given
  | some (flag, value) => given.add flag value
  | none => .ok given

/-- Takes in the environment variable of a flag, if the flag is missing. -/
def fill (environment : Text → Option Text) (given : Given) (flag : Flag) : Except Stop Given :=
  match given.lookup flag, environment flag.variableName with
  | none, some value => given.add flag value
  | _, _ => .ok given

/-- Takes in the environment variables of all flags that are missing. -/
def complete (environment : Text → Option Text) (given : Given) : Except Stop Given :=
  Flag.all.foldlM (fill environment) given

end Given

/-- Whether an argument is read as a flag. A single dash is not. -/
def looksLikeFlag : Text → Bool
  | '-' :: _ :: _ => true
  | _ => false

/-- What an argument before the command says. -/
inductive Token where
  | flag (flag : Flag) (attached : Option Text)
  | information
  | command (name : Text)
  | unknown
deriving DecidableEq, Repr

namespace Token

/-- Reads an argument before the command. Of several one-letter flags in one argument the first
one decides. -/
def ofArgument (arg : Text) : Token :=
  if !looksLikeFlag arg then command arg
  else
    match arg with
    | '-' :: '-' :: _ =>
      match Text.cut? '=' arg with
      | some (name, value) =>
        ((Flag.ofName? name).map fun f => flag f (some value)).getD unknown
      | none =>
        if arg = Text.ofString "--help" ∨ arg = Text.ofString "--version" then information
        else ((Flag.ofName? arg).map fun f => flag f none).getD unknown
    | '-' :: 'h' :: _ => information
    | '-' :: 'V' :: _ => information
    | _ => unknown

end Token

/-! ## Commands -/

/-- The arguments after a command's name, as far as they have been read. -/
structure Arguments where
  positional : List Text := []
  entries : Bool := false

namespace Arguments

/-- Reads the arguments of a command that takes at most `limit` of them, and the switch
`--entries` if `takesEntries`. After `--` nothing is read as a flag. -/
def read (takesEntries : Bool) (limit : Nat) (a : Arguments) : List Text → Except Stop Arguments
  | [] => .ok a
  | arg :: rest =>
    if arg = ['-', '-'] then
      if a.positional.length + rest.length ≤ limit then
        .ok { a with positional := a.positional ++ rest }
      else .error .misuse
    else if looksLikeFlag arg then
      if arg = Text.ofString "--help" ∨ ['-', 'h'].isPrefixOf arg then .error .information
      else if takesEntries ∧ arg = Text.ofString "--entries" ∧ a.entries = false then
        read takesEntries limit { a with entries := true } rest
      else .error .misuse
    else if a.positional.length < limit then
      read takesEntries limit { a with positional := a.positional ++ [arg] } rest
    else .error .misuse

end Arguments

namespace Command

/-- The name of the command that explains the others. -/
def helpName : Text := Text.ofString "help"

/-- The names that can be asked about. -/
def names : List Text :=
  [Text.ofString "list", Text.ofString "enable", Text.ofString "disable",
    Text.ofString "speedhack", helpName]

/-- Reads a command that enables or disables the patches of a name. -/
def parseToggle (enabled : Bool) (args : List Text) : Except Stop Command := do
  match (← Arguments.read false 1 {} args).positional with
  | name :: _ => .ok (toggle name enabled)
  | [] => .error .misuse

/-- Reads a command on the speed table. -/
def parseSpeedhack (args : List Text) : Except Stop Command := do
  match (← Arguments.read false 2 {} args).positional with
  | [] => .ok showTable
  | [address] => .ok (showCycles address)
  | address :: cycles :: _ => .ok (setCycles address cycles)

/-- Reads a request to explain the program or one of its commands. -/
def parseHelp : List Text → Stop
  | [] => .information
  | [name] => if names.contains name then .information else .misuse
  | _ => .misuse

/-- Reads a command with its arguments. -/
def parse (name : Text) (args : List Text) : Except Stop Command :=
  if name = Text.ofString "list" then
    (Arguments.read true 0 {} args).map fun a => list a.entries
  else if name = Text.ofString "enable" then parseToggle true args
  else if name = Text.ofString "disable" then parseToggle false args
  else if name = Text.ofString "speedhack" then parseSpeedhack args
  else if name = helpName then .error (parseHelp args)
  else .error .misuse

end Command

/-! ## The whole line -/

/-- Reads flags and then a command. `pending` is a flag whose value has not been checked yet. -/
def readFlags (given : Given) (pending : Option (Flag × Text)) :
    List Text → Except Stop (Given × Command)
  | [] => .error .misuse
  | arg :: rest =>
    match Token.ofArgument arg with
    | .command name => do
      let command ← Command.parse name rest
      let given ← given.settle pending
      return (given, command)
    | .information => do
      let _ ← given.settle pending
      .error .information
    | .unknown => .error .misuse
    | .flag flag (some value) => do
      let given ← given.settle pending
      let given ← given.add flag value
      readFlags given none rest
    | .flag flag none =>
      match rest with
      | [] => .error .misuse
      | value :: rest =>
        if looksLikeFlag value then .error .misuse
        else do
          let given ← given.settle pending
          readFlags given (some (flag, value)) rest

/-- Reads a command line in an environment. -/
def Invocation.parse (args : List Text) (environment : Text → Option Text) :
    Except Stop Invocation := do
  let (given, command) ← readFlags [] none args
  let given ← given.complete environment
  return {
    paths := { shipped := given.lookup .shippedPath, user := given.lookup .userPath }
    command }

end FramePatch.CommandLine
