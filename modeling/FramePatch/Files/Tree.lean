import FramePatch.Files.Fault

/-!
# File trees

Files and directories below a root, with a working directory from which relative paths start. A
tree answers for every location, a location being the list of names that leads there from the
root; the working directory and those around it are always there.

A path is resolved name by name, and every name but the last has to be a directory on the way. The
parent of the root is the root.

* `node?_put_self`, `node?_put_other`: what a tree answers after a node is put in.
-/

namespace FramePatch

/-- A file with its bytes, or a directory. -/
inductive FileNode where
  | file (bytes : ByteArray)
  | directory

/-- The names that lead from the root to a node. -/
abbrev Location := List Text

/-- The nodes below a root, and the working directory. -/
structure FileTree where
  /-- The working directory. -/
  start : Location
  /-- What has been put at a location, if anything. -/
  nodes : Location → Option FileNode

namespace FileTree

/-- The tree that has nothing but a working directory. -/
def empty (start : Location) : FileTree := ⟨start, fun _ => none⟩

/-- What is at a location. -/
def node? (t : FileTree) (l : Location) : Option FileNode :=
  if l <+: t.start then some .directory else t.nodes l

/-- The tree with a node at a location. -/
def put (t : FileTree) (l : Location) (n : FileNode) : FileTree :=
  { t with nodes := fun k => if k = l then some n else t.nodes k }

theorem node?_put_self (t : FileTree) {l : Location} (n : FileNode) (h : ¬l <+: t.start) :
    (t.put l n).node? l = some n := by
  simp [node?, put, h]

theorem node?_put_other (t : FileTree) {l k : Location} (n : FileNode) (h : k ≠ l) :
    (t.put l n).node? k = t.node? k := by
  simp [node?, put, h]

/-! ## Paths -/

/-- The names on a path, without the empty ones that repeated slashes leave. -/
def pathNames (path : Text) : List Text := (Text.pieces '/' path).filter (· ≠ [])

/-- Whether a path starts at the root. -/
def isAbsolute (path : Text) : Bool := path.head? == some '/'

/-- Whether a path ends in a slash, so that it can only mean a directory. -/
def meansDirectory (path : Text) : Bool := path.getLast? == some '/'

/-- Where the names on a path start from. -/
def origin (t : FileTree) (path : Text) : Location := if isAbsolute path then [] else t.start

/-- The name that stands for the directory it is looked up in. -/
def here : Text := ['.']

/-- The name that stands for the parent of the directory it is looked up in. -/
def up : Text := ['.', '.']

/-- The location that a name leads to from a directory. -/
def follow (l : Location) (name : Text) : Location :=
  if name = here then l else if name = up then l.dropLast else l ++ [name]

/-- The directory that names lead to from a directory, where each of them has to be one. -/
def enter (t : FileTree) : Location → List Text → Except Fault Location
  | l, [] => .ok l
  | l, name :: rest =>
    match t.node? (follow l name) with
    | none => .error .noSuchEntry
    | some (.file _) => .error .notADirectory
    | some .directory => t.enter (follow l name) rest

/-- Whether names lead to a directory. -/
def isDirectory (t : FileTree) (l : Location) (names : List Text) : Bool :=
  (t.enter l names).toBool

/-- The names up to the last one, and the last one. -/
def lastName? (names : List Text) : Option (List Text × Text) :=
  names.getLast?.map fun last => (names.dropLast, last)

/-! ## Reading -/

/-- The bytes of the file at a path. -/
def read (t : FileTree) (path : Text) : Except Fault ByteArray :=
  match lastName? (pathNames path) with
  | none => .error (if path = [] then .noSuchEntry else .isADirectory)
  | some (outer, last) => do
    let l ← t.enter (t.origin path) outer
    match t.node? (follow l last) with
    | none => .error .noSuchEntry
    | some .directory => .error .isADirectory
    | some (.file bytes) => if meansDirectory path then .error .notADirectory else .ok bytes

/-- The text of the file at a path. -/
def readText (t : FileTree) (path : Text) : Except Fault Text := do
  match String.fromUTF8? (← t.read path) with
  | some s => .ok (Text.ofString s)
  | none => .error .invalidText

/-! ## Writing -/

/-- The tree with a file at a path, in place of the file that was there, if any. A name that can
only mean a directory is refused before anything is looked up under it. -/
def write (t : FileTree) (path : Text) (bytes : ByteArray) : Except Fault FileTree :=
  match lastName? (pathNames path) with
  | none => .error (if path = [] then .noSuchEntry else .isADirectory)
  | some (outer, last) => do
    let l ← t.enter (t.origin path) outer
    if last = here ∨ last = up ∨ meansDirectory path then .error .isADirectory
    else
      match t.node? (l ++ [last]) with
      | some .directory => .error .isADirectory
      | _ => .ok (t.put (l ++ [last]) (.file bytes))

/-- The tree with a new directory where names lead; its parent has to be there. -/
def makeDirectory (t : FileTree) (l : Location) (names : List Text) : Except Fault FileTree :=
  match lastName? names with
  | none => .error .alreadyExists
  | some (outer, last) => do
    let l ← t.enter l outer
    if last = here ∨ last = up then .error .alreadyExists
    else
      match t.node? (l ++ [last]) with
      | some _ => .error .alreadyExists
      | none => .ok (t.put (l ++ [last]) .directory)

/-- A tree after an operation that may have stopped on a fault. What was done before the fault
stays done. -/
structure Outcome where
  tree : FileTree
  fault? : Option Fault := none

/-- Makes a directory and those of its parents that are missing. The names come innermost first. -/
def makeDirectories (t : FileTree) (l : Location) : List Text → Outcome
  | [] => ⟨t, none⟩
  | last :: outer =>
    let names := (last :: outer).reverse
    match t.makeDirectory l names with
    | .ok t => ⟨t, none⟩
    | .error fault =>
      if fault = .noSuchEntry then
        match t.makeDirectories l outer with
        | ⟨t, some fault⟩ => ⟨t, some fault⟩
        | ⟨t, none⟩ =>
          match t.makeDirectory l names with
          | .ok t => ⟨t, none⟩
          | .error fault =>
            ⟨t, if fault = .alreadyExists ∧ t.isDirectory l names then none else some fault⟩
      else ⟨t, if t.isDirectory l names then none else some fault⟩

/-- The names of the directory that a path's last name is in. A name that stands for the directory
it is looked up in does not count, except at the start of a relative path. -/
def parentNames (path : Text) : List Text :=
  match pathNames path with
  | [] => []
  | first :: rest =>
    let counted := rest.filter (· ≠ here)
    if first = here ∧ isAbsolute path then counted.dropLast else (first :: counted).dropLast

/-- Writes a file at a path, after making the directory it is to be in. -/
def save (t : FileTree) (path : Text) (bytes : ByteArray) : Outcome :=
  match t.makeDirectories (t.origin path) (parentNames path).reverse with
  | ⟨t, some fault⟩ => ⟨t, some fault⟩
  | ⟨t, none⟩ =>
    match t.write path bytes with
    | .ok t => ⟨t, none⟩
    | .error fault => ⟨t, some fault⟩

end FileTree

end FramePatch
