import FramePatch.Files.Tree

/-!
# File systems

What configurations need from the files of a system: the text of a file, the directory that a file
is to be in, and the file itself. Nothing is promised about the answers. A system may refuse
anything with any fault, and what it did before it refused stays done. A file tree is such a system,
with faults of its own only.
-/

namespace FramePatch

universe u

/-- Files in state `φ`. What makes or writes something gives the state after it, and the fault it
stopped on, if any. -/
class FileSystem (φ : Type u) where
  /-- The text of the file at a path. -/
  readText : φ → Text → Except Fault Text
  /-- Makes the directory that a path's last name is in, and those around it, if there are none. -/
  makeParents : φ → Text → φ × Option Fault
  /-- Writes a file at a path, in place of the file that was there, if any. -/
  write : φ → Text → ByteArray → φ × Option Fault

instance : FileSystem FileTree where
  readText := FileTree.readText
  makeParents t path :=
    let ⟨t, fault?⟩ := t.makeDirectories (t.origin path) (FileTree.parentNames path).reverse
    (t, fault?)
  write t path bytes :=
    match t.write path bytes with
    | .ok t => (t, none)
    | .error fault => (t, some fault)

end FramePatch
