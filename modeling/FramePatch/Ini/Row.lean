import FramePatch.Ini.Store
import FramePatch.Text.Blank

/-!
# Rows and effective lines

A section is read in two ways. Its *effective lines* are its raw lines without comments; its
*rows* are the raw lines of the form `key = value`. A line that starts with `#`, `$`, `+` or `*`
is never a row. A key is not blank and is compared up to case; of several rows with one key the
last one counts. A value may stand between double quotes, which are then not part of it.
-/

namespace FramePatch.Ini

/-! ## Comments -/

/-- The line without its comment, or nothing if it is all comment. A comment starts at `#`; where
one is cut off, the blanks before it go too. -/
def effectiveLine? : Text → Option Text
  | '#' :: _ => none
  | line =>
    match Text.cut? '#' line with
    | some (before, _) => some (Text.trimRight before)
    | none => some line

/-! ## Rows -/

/-- The text without one pair of double quotes around it. -/
def unquote (t : Text) : Text :=
  ((Text.stripStart? '"' t).bind (Text.stripEnd? '"')).getD t

/-- The characters that mark a line as something other than a row. -/
def rawMarks : List Char := ['#', '$', '+', '*']

/-- The key and the value of a line that is a row. -/
def row? (line : Text) : Option (Text × Text) :=
  if line.head?.any (rawMarks.contains ·) then none
  else
    (Text.cut? '=' line).bind fun (key, value) =>
      if Text.trim key = [] then none else some (Text.trim key, unquote (Text.trim value))

/-- The line of a row. -/
def rowLine (key value : Text) : Text := key ++ [' ', '=', ' '] ++ value

/-- Whether a line is a row with the given key. -/
def isRowOf (key line : Text) : Bool :=
  (row? line).any fun r => Text.sameFolded r.1 key

/-- The list with the last element that satisfies `p` replaced by `new`, if there is one. -/
def replaceLast? (p : Text → Bool) (new : Text) : List Text → Option (List Text)
  | [] => none
  | line :: rest =>
    match replaceLast? p new rest with
    | some rest => some (line :: rest)
    | none => if p line then some (new :: rest) else none

/-- The lines after a row is set: it takes the place of the last row with its key, or comes last. -/
def setRow (key value : Text) (lines : List Text) : List Text :=
  (replaceLast? (isRowOf key) (rowLine key value) lines).getD (lines ++ [rowLine key value])

namespace Store

/-- The effective lines of a section. -/
def lines (store : Store) (name : Text) : List Text :=
  (store.rawLines name).filterMap effectiveLine?

/-- The rows of a section, in their order. -/
def rows (store : Store) (name : Text) : List (Text × Text) :=
  (store.rawLines name).filterMap row?

/-- The value of the last row with the given key. -/
def get? (store : Store) (name key : Text) : Option Text :=
  ((store.rows name).findRev? fun r => Text.sameFolded r.1 key).map (·.2)

/-- Sets a row of a section, creating the section if it is missing. -/
def set (store : Store) (name key value : Text) : Store :=
  store.edit name (setRow key value)

end Store

end FramePatch.Ini
