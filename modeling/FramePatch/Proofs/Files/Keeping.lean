import FramePatch.Files.Program
import FramePatch.Proofs.Files.Tree

/-!
# Files that are kept

A file system may refuse a request at any time, and may have done part of it. All that is ever
assumed of one is that its files are no worse for it (`KeepsFiles`): a request that is refused
leaves alone what the files hold. Then so does a save that fails, wherever it stopped
(`KeepsFiles.save`). File trees are such systems (`keepsFiles_file?`).
-/

namespace FramePatch

universe w x

section Keeping

variable {φ : Type w} [FileSystem φ]

/-- Requests that fail leave the files alone, where `file` tells what each file holds, if it is
there. Making directories leaves them alone in any case. -/
structure FileSystem.KeepsFiles {ι : Type x} (file : φ → ι → Option ByteArray) : Prop where
  makeParents (s : φ) (path : Text) {i : ι} {bytes : ByteArray} :
    file s i = some bytes → file (FileSystem.makeParents s path).1 i = some bytes
  write (s : φ) (path : Text) (new : ByteArray) {fault : Fault} {i : ι} {bytes : ByteArray} :
    (FileSystem.write s path new).2 = some fault → file s i = some bytes →
      file (FileSystem.write s path new).1 i = some bytes

/-- Then a save that fails leaves the files alone. -/
theorem FileSystem.KeepsFiles.save {ι : Type x} {file : φ → ι → Option ByteArray}
    (hkeeps : FileSystem.KeepsFiles file) {s t : φ} {path : Text} {new : ByteArray} {fault : Fault}
    (hsave : FileSystem.save s path new = (t, some fault)) {i : ι} {bytes : ByteArray}
    (hfile : file s i = some bytes) : file t i = some bytes := by
  have hmade := hkeeps.makeParents s path hfile
  rw [FileSystem.save_eq] at hsave
  split at hsave
  · next made fault' hmake =>
    -- it stopped on the way
    obtain ⟨rfl, -⟩ := Prod.mk.inj hsave
    rwa [hmake] at hmade
  · next made hmake =>
    -- the way is made, and the file is not written
    rw [hmake] at hmade
    have hwrite := hkeeps.write made path new (congrArg Prod.snd hsave) hmade
    rwa [hsave] at hwrite

end Keeping

namespace FileTree

/-- What the file at a location holds. -/
def file? (t : FileTree) (l : Location) : Option ByteArray :=
  match t.node? l with
  | some (.file bytes) => some bytes
  | _ => none

theorem file?_eq_some_iff {t : FileTree} {l : Location} {bytes : ByteArray} :
    t.file? l = some bytes ↔ t.node? l = some (.file bytes) := by
  rw [file?]
  cases t.node? l with
  | none => simp
  | some n => cases n <;> simp

/-- **File trees** leave files alone where a request fails. -/
theorem keepsFiles_file? : FileSystem.KeepsFiles file? where
  makeParents t path l bytes hfile := by
    have hway := t.makeDirectories_madeWay (t.origin path) (parentNames path).reverse
    exact file?_eq_some_iff.2 (hway.kept (file?_eq_some_iff.1 hfile))
  write t path new fault l bytes hfault hfile := by
    cases hwrite : t.write path new with
    | ok u => simp only [FileSystem.write, hwrite, reduceCtorEq] at hfault
    | error fault' =>
      simp only [FileSystem.write, hwrite]
      exact hfile

end FileTree

end FramePatch
