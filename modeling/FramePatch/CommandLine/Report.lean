import FramePatch.CommandLine.Run

/-!
# Reports

What a run of the program leaves behind: an exit code, the text it printed, and the report of a
failure. The report of a file error names the step that failed and then the chain of causes,
numbered from zero. An error that comes without a step is reported with its one cause.
-/

namespace FramePatch.CommandLine

universe u

namespace Failure

/-- A text after a label. Its further lines are indented by some blanks. -/
def indented (label : Text) (blanks : Nat) (message : Text) : Text :=
  label ++ message.flatMap fun c => if c = '\n' then c :: List.replicate blanks ' ' else [c]

/-- A cause in a numbered chain. Its further lines stand under the first one. -/
def causeLine (number : Nat) (message : Text) : Text :=
  indented ([' ', ' ', ' ', ' '] ++ Numeral.decimal number ++ [':', ' ']) 7 message

/-- The report of a file error in a step of the program. -/
def fileReport (step : Text) (error : FileError) : Text :=
  Text.join '\n'
    [step, [], Text.ofString "Caused by:", causeLine 0 error.message,
      causeLine 1 error.cause.message]

/-- The report of a file error alone. Its cause is the only one, so it has no number. -/
def bareReport (error : FileError) : Text :=
  Text.join '\n'
    [error.message, [], Text.ofString "Caused by:",
      indented [' ', ' ', ' ', ' '] 4 error.cause.message]

/-- The report of a failure. -/
def report : Failure → Text
  | loading error => fileReport (Text.ofString "load game ini files") error
  | rereading error => bareReport error
  | saving path error => fileReport (Text.ofString "save " ++ path) error
  | noPathForPatches => Text.ofString "--local-ini is required to save patch state"
  | noPathForSpeedTable => Text.ofString "--local-ini is required to save speed hacks"
  | unknownPatch name => Text.ofString "no patch named " ++ Text.quote name
  | badAddress literal => Text.ofString "invalid address " ++ Text.quote literal
  | badCycles literal => Text.ofString "invalid cycle count " ++ Text.quote literal

end Failure

/-- What a run of the program leaves behind, files apart. -/
inductive Result where
  /-- The command succeeded and printed a text. -/
  | done (output : Text)
  /-- The command failed. -/
  | failed (failure : Failure)
  /-- There was no command to run. -/
  | stopped (reason : Stop)

namespace Result

/-- What a command leaves behind. -/
def ofCommand : Except Failure Text → Result
  | .ok output => done output
  | .error failure => failed failure

/-- The exit code. -/
def exitCode : Result → Nat
  | done _ => 0
  | failed _ => 1
  | stopped .information => 0
  | stopped .misuse => 2

/-- The text printed by a command. -/
def output : Result → Text
  | done output => output
  | failed _ => []
  | stopped _ => []

/-- The report of a failed command. -/
def report? : Result → Option Text
  | failed failure => some failure.report
  | _ => none

end Result

/-- The whole program, given its arguments and the environment. -/
def program (args : List Text) (environment : Text → Option Text) : FileProgram Result := do
  match Invocation.parse args environment with
  | .error reason => return .stopped reason
  | .ok i => return .ofCommand (← i.program)

/-- Runs the program on a file system. -/
def run {φ : Type u} [FileSystem φ] (args : List Text) (environment : Text → Option Text) (s : φ) :
    φ × Result :=
  (program args environment).runOn s

end FramePatch.CommandLine
