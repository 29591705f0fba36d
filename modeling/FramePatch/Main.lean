import FramePatch.CommandLine.Report

/-!
# The program

The outermost layer: it takes the command line and the environment from the system, makes the
requests that `CommandLine.program` asks for to the real files, and prints.
-/

namespace FramePatch.CommandLine

/-- The fault of an error number. Some system calls report the number as its negative. -/
def faultOfNumber (code : UInt32) (description : String) : Fault :=
  match min code.toNat (0 - code).toNat with
  | 2 => .noSuchEntry
  | 17 => .alreadyExists
  | 20 => .notADirectory
  | 21 => .isADirectory
  | number => .system number (Text.ofString description)

/-- The fault that a failed system call stands for. -/
def faultOfError : IO.Error → Fault
  | .noFileOrDirectory _ code description => faultOfNumber code description
  | .alreadyExists _ code description => faultOfNumber code description
  | .inappropriateType _ code description => faultOfNumber code description
  | .permissionDenied _ code description => faultOfNumber code description
  | .resourceExhausted _ code description => faultOfNumber code description
  | .invalidArgument _ code description => faultOfNumber code description
  | .otherError code description => faultOfNumber code description
  | error => .system 5 (Text.ofString error.toString)

/-- Performs an action on files; a system call that fails gives its fault. -/
def attempt {α : Type} (action : IO α) : IO (Except Fault α) := do
  try
    return .ok (← action)
  catch error =>
    return .error (faultOfError error)

/-- The fault that an action on files stops on, if any. -/
def faultOf (action : IO Unit) : IO (Option Fault) := do
  match ← attempt action with
  | .ok () => return none
  | .error fault => return some fault

/-- Reads the text of a file. -/
def readText (path : Text) : IO (Except Fault Text) := do
  match ← attempt (IO.FS.readBinFile path.toStr) with
  | .error fault => return .error fault
  | .ok bytes =>
    match String.fromUTF8? bytes with
    | some s => return .ok (Text.ofString s)
    | none => return .error .invalidText

/-- The path of the directory that a path's last name is in, if it has to be made. -/
def parentPath? (path : Text) : Option Text :=
  match FileTree.parentNames path with
  | [] => none
  | names => some ((if FileTree.isAbsolute path then ['/'] else []) ++ Text.join '/' names)

/-- Makes the directory that a path's last name is in, and those around it, if there are none. -/
def makeParents (path : Text) : IO (Option Fault) :=
  match parentPath? path with
  | none => return none
  | some parent => faultOf (IO.FS.createDirAll parent.toStr)

/-- Makes the requests of a program to the real files. -/
def carryOut {α : Type} : FileProgram α → IO α
  | .done result => return result
  | .readText path next => do carryOut (next (← readText path))
  | .makeParents path next => do carryOut (next (← makeParents path))
  | .write path bytes next => do
    carryOut (next (← faultOf (IO.FS.writeBinFile path.toStr bytes)))

/-- How the program is used. -/
def usage : String :=
  "Usage: aero-patch [--global-ini PATH] [--local-ini PATH] [--log-level FILTER] COMMAND\n\n" ++
    "Commands:\n" ++
    "  list [--entries]\n" ++
    "  enable NAME\n" ++
    "  disable NAME\n" ++
    "  speedhack [ADDRESS [CYCLES]]\n" ++
    "  help [COMMAND]\n"

/-- The environment, as far as flags ask for it. -/
def readEnvironment : IO (Text → Option Text) := do
  let values ← Flag.all.mapM fun flag => do
    return (flag.variableName, (← IO.getEnv flag.variableName.toStr).map Text.ofString)
  return fun name => (values.find? (·.1 == name)).bind (·.2)

/-- Runs the program and prints what it leaves behind. -/
def runProgram (args : List String) : IO UInt32 := do
  let result ← carryOut (program (args.map Text.ofString) (← readEnvironment))
  match result with
  | .stopped .information => IO.print usage
  | .stopped .misuse => IO.eprint usage
  | _ => IO.print result.output.toStr
  if let some report := result.report? then
    IO.eprintln ("Error: " ++ report.toStr)
  return UInt32.ofNat result.exitCode

end FramePatch.CommandLine

/-- The program. -/
def main (args : List String) : IO UInt32 := FramePatch.CommandLine.runProgram args
