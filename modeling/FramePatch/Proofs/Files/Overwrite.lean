import FramePatch.Proofs.Files.Tree
import Mathlib.Data.List.Basic

/-!
# Saving over a file

A file that can be read can be saved: its directory is there, so none has to be made, and the file
takes the new bytes. Nothing else in the tree changes (`save_of_read`), and of two saves in a row
only the second one counts (`put_put`).

- `Reached`: there are directories all the way to a location. It holds where a path starts from, and
  following names keeps it, so a last name that leads to a file is a name of its own.
- `makeDirectories_of_enter`: making directories that are there changes nothing.
-/

namespace FramePatch

namespace FileTree

/-! ## Locations that were reached -/

/-- There are directories all the way to a location. -/
def Reached (t : FileTree) (l : Location) : Prop := ∀ k, k <+: l → t.node? k = some .directory

/-- Names lead somewhere if the first one leads to a directory, and the others lead on from it. -/
theorem enter_cons_eq_ok_iff {t : FileTree} {l k : Location} {name : Text} {rest : List Text} :
    t.enter l (name :: rest) = .ok k ↔
      t.node? (follow l name) = some .directory ∧ t.enter (follow l name) rest = .ok k := by
  rw [enter]
  cases t.node? (follow l name) with
  | none => simp
  | some n => cases n <;> simp

theorem reached_origin (t : FileTree) (path : Text) : t.Reached (t.origin path) := by
  intro k hk
  refine if_pos ?_
  rw [origin] at hk
  split at hk
  · rw [List.prefix_nil.1 hk]
    exact List.nil_prefix
  · exact hk

namespace Reached

variable {t : FileTree} {l : Location}

theorem node? (h : t.Reached l) : t.node? l = some .directory := h l List.prefix_rfl

/-- A name that leads to a directory leads to a location that is reached. -/
theorem follow {name : Text} (h : t.Reached l)
    (hdir : t.node? (FileTree.follow l name) = some .directory) :
    t.Reached (FileTree.follow l name) := by
  intro k hk
  rw [FileTree.follow] at hk hdir
  split at hk
  · exact h k hk
  · next hhere =>
    rw [if_neg hhere] at hdir
    split at hk
    · exact h k (hk.trans (List.dropLast_prefix l))
    · next hup =>
      rw [if_neg hup] at hdir
      rcases List.prefix_concat_iff.1 hk with rfl | hk
      · exact hdir
      · exact h k hk

theorem enter {k : Location} {names : List Text} (h : t.Reached l)
    (henter : t.enter l names = .ok k) : t.Reached k := by
  induction names generalizing l with
  | nil => exact Except.ok.inj henter ▸ h
  | cons name rest ih =>
    obtain ⟨hdir, hrest⟩ := enter_cons_eq_ok_iff.1 henter
    exact ih (h.follow hdir) hrest

/-- The name that stands for the directory it is looked up in can be left out. -/
theorem enter_filter_here {k : Location} {names : List Text} (h : t.Reached l)
    (henter : t.enter l names = .ok k) : t.enter l (names.filter (· ≠ here)) = .ok k := by
  induction names generalizing l with
  | nil => exact henter
  | cons name rest ih =>
    obtain ⟨hdir, hrest⟩ := enter_cons_eq_ok_iff.1 henter
    have hfiltered := ih (h.follow hdir) hrest
    by_cases hname : name = here
    · have hstay : FileTree.follow l name = l := if_pos hname
      rw [hstay] at hfiltered
      rw [List.filter_cons_of_neg (by simp [hname])]
      exact hfiltered
    · rw [List.filter_cons_of_pos (by simpa using hname)]
      exact enter_cons_eq_ok_iff.2 ⟨hdir, hfiltered⟩

/-- A name that leads to a file is a name of its own. The others stand for directories. -/
theorem ne_of_file {name : Text} {bytes : ByteArray} (h : t.Reached l)
    (hfile : t.node? (FileTree.follow l name) = some (.file bytes)) : name ≠ here ∧ name ≠ up := by
  constructor
  · rintro rfl
    have hstay : FileTree.follow l here = l := if_pos rfl
    rw [hstay, h.node?] at hfile
    exact nomatch hfile
  · rintro rfl
    have hparent : FileTree.follow l up = l.dropLast := rfl
    rw [hparent, h _ (List.dropLast_prefix l)] at hfile
    exact nomatch hfile

end Reached

/-! ## Directories that need not be made -/

/-- The last of some names leads to a directory from where the others lead. -/
theorem enter_concat_eq_ok_iff {t : FileTree} {l k : Location} {outer : List Text} {last : Text} :
    t.enter l (outer ++ [last]) = .ok k ↔ ∃ m, t.enter l outer = .ok m ∧
      t.node? (follow m last) = some .directory ∧ follow m last = k := by
  induction outer generalizing l with
  | nil =>
    rw [List.nil_append, enter_cons_eq_ok_iff]
    simp [enter]
  | cons name rest ih =>
    simp only [List.cons_append, enter_cons_eq_ok_iff, ih]
    constructor
    · rintro ⟨hdir, m, hm, hlast⟩
      exact ⟨m, ⟨hdir, hm⟩, hlast⟩
    · rintro ⟨m, ⟨hdir, hm⟩, hlast⟩
      exact ⟨hdir, m, hm, hlast⟩

/-- Making a directory that is there is refused. -/
theorem makeDirectory_of_enter {t : FileTree} {l k : Location} {names : List Text}
    (henter : t.enter l names = .ok k) : t.makeDirectory l names = .error .alreadyExists := by
  rcases names.eq_nil_or_concat' with rfl | ⟨outer, last, rfl⟩
  · rfl
  · obtain ⟨m, houter, hdir, -⟩ := enter_concat_eq_ok_iff.1 henter
    rw [makeDirectory, lastName?_eq_some_iff.2 rfl]
    simp only [houter, ok_bind]
    by_cases hlast : last = here ∨ last = up
    · rw [if_pos hlast]
    · rw [not_or] at hlast
      rw [follow_of_ne hlast.1 hlast.2] at hdir
      rw [if_neg (not_or.2 hlast), hdir]

/-- Making directories that are there changes nothing. -/
theorem makeDirectories_of_enter {t : FileTree} {l k : Location} {names : List Text}
    (henter : t.enter l names = .ok k) : t.makeDirectories l names.reverse = ⟨t, none⟩ := by
  cases hnames : names.reverse with
  | nil => rfl
  | cons last outer =>
    have hback : (last :: outer).reverse = names := by rw [← hnames, List.reverse_reverse]
    have hother : Fault.alreadyExists ≠ Fault.noSuchEntry := by decide
    have hthere : t.isDirectory l names := by rw [isDirectory, henter]; rfl
    rw [makeDirectories, hback, makeDirectory_of_enter henter]
    simp only [if_neg hother, hthere, if_true]

/-! ## Saving over a file -/

/-- The directory that a path's last name is in is where the names in front of it lead. -/
theorem enter_parentNames {t : FileTree} {path : Text} {outer : List Text} {last : Text}
    {l k : Location} (hnames : pathNames path = outer ++ [last]) (hlast : last ≠ here)
    (hl : t.Reached l) (henter : t.enter l outer = .ok k) :
    t.enter l (parentNames path) = .ok k := by
  cases outer with
  | nil =>
    -- there is no name in front, and none is left
    have hparent : parentNames path = [] := by
      rw [parentNames, hnames]
      simp [hlast]
    rw [hparent]
    exact henter
  | cons first rest =>
    obtain ⟨hdir, hrest⟩ := enter_cons_eq_ok_iff.1 henter
    have hfiltered := (hl.follow hdir).enter_filter_here hrest
    have hcounted : (rest ++ [last]).filter (· ≠ here) = rest.filter (· ≠ here) ++ [last] := by
      rw [List.filter_append, List.filter_cons_of_pos (by simpa using hlast), List.filter_nil]
    rw [parentNames, hnames]
    simp only [List.cons_append, hcounted]
    split
    · next hfirst =>
      have hstay : follow l first = l := if_pos hfirst.1
      rw [List.dropLast_concat, ← hstay]
      exact hfiltered
    · rw [← List.cons_append, List.dropLast_concat]
      exact enter_cons_eq_ok_iff.2 ⟨hdir, hfiltered⟩

/-- A file is found under a name of its own, in a directory that is reached. -/
theorem reached_of_locate? {t : FileTree} {path : Text} {loc : Location} {bytes : ByteArray}
    (hloc : t.locate? path = some loc) (hnode : t.node? loc = some (.file bytes)) :
    ∃ outer last l, lastName? (pathNames path) = some (outer, last) ∧
      t.enter (t.origin path) outer = .ok l ∧ t.Reached l ∧ last ≠ here ∧ last ≠ up ∧
      loc = l ++ [last] := by
  obtain ⟨outer, last, l, hnames, henter, rfl⟩ := locate?_eq_some_iff.1 hloc
  have hl : t.Reached l := (reached_origin t path).enter henter
  obtain ⟨hhere, hup⟩ := hl.ne_of_file hnode
  exact ⟨outer, last, l, hnames, henter, hl, hhere, hup, follow_of_ne hhere hup⟩

/-- **Saving over a file** puts the new one in its place, and does nothing else. -/
theorem save_of_read {t : FileTree} {path : Text} {loc : Location} {old : ByteArray}
    (hread : t.read path = .ok old) (hloc : t.locate? path = some loc) (bytes : ByteArray) :
    t.save path bytes = ⟨t.put loc (.file bytes), none⟩ := by
  obtain ⟨hfile, loc', hloc', hnode⟩ := read_eq_ok_iff.1 hread
  obtain rfl : loc = loc' := Option.some.inj (hloc.symm.trans hloc')
  obtain ⟨outer, last, k, hnames, henter, -, hhere, hup, rfl⟩ := reached_of_locate? hloc hnode
  have hdirs : t.makeDirectories (t.origin path) (parentNames path).reverse = ⟨t, none⟩ :=
    makeDirectories_of_enter (enter_parentNames (lastName?_eq_some_iff.1 hnames) hhere
      (reached_origin t path) henter)
  have hnew : t.node? (k ++ [last]) ≠ some .directory := by
    rw [hnode]
    exact nofun
  have hwrite : t.write path bytes = .ok (t.put (k ++ [last]) (.file bytes)) :=
    write_eq_ok_iff.2 ⟨hfile, outer, last, k, hnames, henter, hhere, hup, hnew, rfl⟩
  rw [save, hdirs]
  simp only [hwrite]

/-- Of two files put in one place the second one stays. -/
theorem put_put (t : FileTree) (loc : Location) (n m : FileNode) :
    (t.put loc n).put loc m = t.put loc m := by
  simp only [put, mk.injEq, true_and]
  funext k
  split <;> rfl

end FileTree

end FramePatch
