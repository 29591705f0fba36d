import FramePatch.Ini.Store
import FramePatch.Text.Blank

/-!
# Ini texts

The text of a store has a header `[name]` for every section, the section's lines under it, and an
empty line between sections. Reading trims every line and skips the blank ones. A line that starts
with `[` and has a `]` later is a header, whatever follows the bracket; a header that repeats a
name, in any case, continues the section of that name. Lines before the first header are not part
of any section.
-/

namespace FramePatch.Ini

/-! ## Reading -/

/-- The section name that a trimmed line announces, if it is a header. -/
def headerName? (line : Text) : Option Text :=
  (Text.stripStart? '[' line).bind fun rest =>
    (Text.cut? ']' rest).map fun (name, _) => Text.trim name

/-- The lines of a text that count: trimmed, and not blank. -/
def significantLines (text : Text) : List Text :=
  ((Text.pieces '\n' text).map Text.trim).filter (· ≠ [])

/-- Parts lines into those before the first header, and a block for every header with the lines
that follow it. -/
def blocks : List Text → List Text × List Section
  | [] => ([], [])
  | line :: rest =>
    let (loose, bs) := blocks rest
    match headerName? line with
    | some name => ([], ⟨name, loose⟩ :: bs)
    | none => (line :: loose, bs)

/-- Adds a block to the section of its name. -/
def Store.addBlock (store : Store) (block : Section) : Store :=
  store.edit block.name (· ++ block.lines)

/-- The store that a text describes. -/
def Store.parse (text : Text) : Store :=
  (blocks (significantLines text)).2.foldl addBlock .empty

/-! ## Printing -/

/-- The header and the lines of one section, each ended by a newline. -/
def Section.print (s : Section) : Text :=
  (('[' :: s.name ++ [']']) :: s.lines).flatMap fun line => line ++ ['\n']

/-- The text of a store. -/
def Store.print (store : Store) : Text := Text.join '\n' (store.sections.map Section.print)

end FramePatch.Ini
