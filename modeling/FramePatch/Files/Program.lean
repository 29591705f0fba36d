import FramePatch.Files.System

/-!
# Programs on files

What is done with files, as data: the requests that are made, one after another, and how it goes on
after each answer. A program is written once. On a file system its run is a function of the files
(`runOn`); the real files are those of whoever carries it out, request by request.

* `runOn_bind`: one program after another runs on the files that the first one leaves.
* `FileSystem.save_eq`: a save stops where the directories cannot be made.
-/

namespace FramePatch

universe u

/-- Requests for files, one after another, and a result. How it goes on after a request is up to the
answer. -/
inductive FileProgram (α : Type) where
  | done (result : α)
  | readText (path : Text) (next : Except Fault Text → FileProgram α)
  | makeParents (path : Text) (next : Option Fault → FileProgram α)
  | write (path : Text) (bytes : ByteArray) (next : Option Fault → FileProgram α)

namespace FileProgram

variable {α β : Type}

/-- Goes on with another program, which is up to the result of the first one. -/
def bind : FileProgram α → (α → FileProgram β) → FileProgram β
  | done result, f => f result
  | readText path next, f => readText path fun answer => (next answer).bind f
  | makeParents path next, f => makeParents path fun answer => (next answer).bind f
  | write path bytes next, f => write path bytes fun answer => (next answer).bind f

instance : Monad FileProgram where
  pure := done
  bind := bind

/-- Writes a file, after making the directory it is to be in. -/
def save (path : Text) (bytes : ByteArray) : FileProgram (Option Fault) :=
  makeParents path fun
    | some fault => done (some fault)
    | none => write path bytes done

section Running

variable {φ : Type u} [FileSystem φ]

/-- Runs a program on a file system. -/
def runOn : FileProgram α → φ → φ × α
  | done result, s => (s, result)
  | readText path next, s => (next (FileSystem.readText s path)).runOn s
  | makeParents path next, s =>
    let (made, fault?) := FileSystem.makeParents s path
    (next fault?).runOn made
  | write path bytes next, s =>
    let (written, fault?) := FileSystem.write s path bytes
    (next fault?).runOn written

@[simp] theorem runOn_pure (result : α) (s : φ) :
    (pure result : FileProgram α).runOn s = (s, result) := rfl

/-- **One program after another** runs on the files that the first one leaves. -/
@[simp] theorem runOn_bind (p : FileProgram α) (f : α → FileProgram β) (s : φ) :
    (p >>= f).runOn s = (f (p.runOn s).2).runOn (p.runOn s).1 := by
  -- the answer to a request may decide the rest, so this holds of the rest after any answer
  induction p generalizing s with
  | done result => rfl
  | readText path next ih => exact ih _ s
  | makeParents path next ih => exact ih _ _
  | write path bytes next ih => exact ih _ _

end Running

end FileProgram

namespace FileSystem

variable {φ : Type u} [FileSystem φ]

/-- Writes a file at a path, after making the directory it is to be in. -/
def save (s : φ) (path : Text) (bytes : ByteArray) : φ × Option Fault :=
  (FileProgram.save path bytes).runOn s

/-- A save writes the file, if it did not have to stop on the way. -/
theorem save_eq (s : φ) (path : Text) (bytes : ByteArray) :
    save s path bytes =
      match makeParents s path with
      | (made, some fault) => (made, some fault)
      | (made, none) => write made path bytes := by
  show (FileProgram.save path bytes).runOn s = _
  rw [FileProgram.save, FileProgram.runOn]
  cases makeParents s path with
  | mk made fault? => cases fault? <;> rfl

end FileSystem

/-- A save on the system that a tree is does what a save on the tree does. -/
theorem FileTree.fileSystem_save (t : FileTree) (path : Text) (bytes : ByteArray) :
    FileSystem.save t path bytes = ((t.save path bytes).tree, (t.save path bytes).fault?) := by
  rw [FileSystem.save_eq]
  simp only [FileSystem.makeParents, FileSystem.write, save]
  cases t.makeDirectories (t.origin path) (parentNames path).reverse with
  | mk made fault? =>
    cases fault? with
    | some fault => rfl
    | none => cases hwrite : made.write path bytes <;> simp only [hwrite]

theorem FileTree.fileSystem_save_eq_iff {t u : FileTree} {path : Text} {bytes : ByteArray}
    {fault? : Option Fault} :
    FileSystem.save t path bytes = (u, fault?) ↔ t.save path bytes = ⟨u, fault?⟩ := by
  rw [fileSystem_save]
  cases t.save path bytes
  simp

end FramePatch
