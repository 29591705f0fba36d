import FramePatch.Proofs.Files.Overwrite

/-!
# Settled paths

Making directories can change where a path leads. From a directory that is still to be made, a path
may go back up and come to a file that is there already; once a save at the path has made that
directory, it writes over the file. A path is settled if this cannot happen: it leads somewhere
already, or it never goes up.

- `Reached.enter_of_enter`: names that never go up lead through directories wherever the location
  they lead to is reached.
- `Wrote.locate?_of_settled`: if a file that was there is written over by a save at a settled path,
  the path led to that file before.
-/

namespace FramePatch

namespace FileTree

/-- A path that leads somewhere, or that never goes up. -/
def Settled (t : FileTree) (path : Text) : Prop :=
  (∃ loc, t.locate? path = some loc) ∨ up ∉ pathNames path

/-- Names that never go up lead further down. -/
theorem prefix_of_enter {t : FileTree} {l k : Location} {names : List Text} (hup : up ∉ names)
    (henter : t.enter l names = .ok k) : l <+: k := by
  induction names generalizing l with
  | nil => exact Except.ok.inj henter ▸ List.prefix_rfl
  | cons name rest ih =>
    obtain ⟨hname, hrest⟩ := List.ne_and_not_mem_of_not_mem_cons hup
    have hdown : l <+: follow l name := by
      rw [follow]
      split
      · exact List.prefix_rfl
      · rw [if_neg (Ne.symm hname)]
        exact List.prefix_append l [name]
    exact hdown.trans (ih hrest (enter_cons_eq_ok_iff.1 henter).2)

/-- If names that never go up lead to a location in one tree, they lead there in every tree in which
it is reached. -/
theorem Reached.enter_of_enter {t u : FileTree} {l k : Location} {names : List Text}
    (hk : t.Reached k) (hup : up ∉ names) (henter : u.enter l names = .ok k) :
    t.enter l names = .ok k := by
  induction names generalizing l with
  | nil => exact henter
  | cons name rest ih =>
    obtain ⟨-, hrest⟩ := enter_cons_eq_ok_iff.1 henter
    have hup' : up ∉ rest := List.not_mem_of_not_mem_cons hup
    exact enter_cons_eq_ok_iff.2 ⟨hk _ (prefix_of_enter hup' hrest), ih hup' hrest⟩

/-- **Writing over a file** by a settled path is writing to where the path led before. -/
theorem Wrote.locate?_of_settled {t u : FileTree} {path other : Text} {loc : Location}
    {bytes old : ByteArray} (h : Wrote t loc bytes u) (hsettled : t.Settled path)
    (hpath : u.locate? path = some loc) (hother : t.locate? other = some loc)
    (hold : t.node? loc = some (.file old)) : t.locate? path = some loc := by
  rcases hsettled with ⟨k, hk⟩ | hup
  · rw [hk, ← h.locate? hk, hpath]
  · obtain ⟨_, _, k, -, -, hk, -, -, hthere⟩ := reached_of_locate? hother hold
    obtain ⟨outer, last, l, hnames, henter, -, hhere, hlast, rfl⟩ := reached_of_locate? hpath h.file
    -- both ways end with one name, so they end in one directory
    obtain ⟨rfl, -⟩ := List.append_inj' hthere rfl
    have horigin : u.origin path = t.origin path := by rw [origin, origin, h.start]
    have houter : up ∉ outer := by
      rw [lastName?_eq_some_iff.1 hnames] at hup
      exact fun hmem => hup (List.mem_append_left _ hmem)
    rw [horigin] at henter
    exact locate?_eq_some_iff.2
      ⟨outer, last, l, hnames, hk.enter_of_enter houter henter, follow_of_ne hhere hlast⟩

end FileTree

end FramePatch
