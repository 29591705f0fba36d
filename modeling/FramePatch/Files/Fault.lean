import FramePatch.Numeral

/-!
# File faults

Why a file could not be read or written: the system refused, with an error number and its
description, or the bytes of the file are no text.
-/

namespace FramePatch

/-- The cause of a failed file operation. -/
inductive Fault where
  | system (code : Nat) (description : Text)
  | invalidText
deriving DecidableEq, Repr

namespace Fault

def noSuchEntry : Fault := system 2 (Text.ofString "No such file or directory")
def alreadyExists : Fault := system 17 (Text.ofString "File exists")
def notADirectory : Fault := system 20 (Text.ofString "Not a directory")
def isADirectory : Fault := system 21 (Text.ofString "Is a directory")

/-- Whether the fault is that there is nothing at the path. -/
def isMissing : Fault → Bool
  | system code _ => code == 2
  | invalidText => false

/-- The text of a fault. -/
def message : Fault → Text
  | system code description =>
    description ++ Text.ofString " (os error " ++ Numeral.decimal code ++ [')']
  | invalidText => Text.ofString "stream did not contain valid UTF-8"

end Fault

/-- A configuration file that could not be read or written. -/
inductive FileError where
  | unreadable (path : Text) (cause : Fault)
  | unwritable (path : Text) (cause : Fault)
deriving DecidableEq, Repr

namespace FileError

/-- The fault behind the error. -/
def cause : FileError → Fault
  | unreadable _ cause => cause
  | unwritable _ cause => cause

/-- The text of an error: which file, and the text of the fault. -/
def message : FileError → Text
  | unreadable path cause =>
    Text.ofString "failed to read ini file " ++ path ++ [':', ' '] ++ cause.message
  | unwritable path cause =>
    Text.ofString "failed to write ini file " ++ path ++ [':', ' '] ++ cause.message

end FileError

end FramePatch
