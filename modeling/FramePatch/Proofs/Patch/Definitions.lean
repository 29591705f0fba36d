import FramePatch.Patch.Merge
import FramePatch.Proofs.Entry.Line

/-!
# What the lines of a section define

The scan of a section keeps the patches closed so far and the one that is open. Here is what it
comes to, said without a scan: every `$` line gives one definition, a name with the entries decoded
from the lines up to the next `$` line (`headed`); the last one is left out if it has no entries
(`withoutHollowEnd`), and those without a name are left out wherever they stand (`declared`).

- `patches_foldl_step`: the scan from any state on, by induction on the lines. The open patch
  counts as one more definition in front, which takes the entries before the first `$` line.
- `define_eq_declared`: so the scan of a whole section gives the declared patches.
- `mem_declared`: what is known of every definition. Its name is not empty and stands on a `$` line,
  and its entries were decoded from lines.
-/

namespace FramePatch.Patch

/-- A name and the entries under it. -/
abbrev Definition := Text × List Entry

/-- The entries decoded from the lines before the first `$` line. -/
def leadingEntries (lines : List Text) : List Entry :=
  (lines.takeWhile fun line => (headerName? line).isNone).filterMap Entry.decode?

/-- The definitions of the `$` lines: each name with the entries from there to the next `$` line. -/
def headed : List Text → List Definition
  | [] => []
  | line :: rest =>
    match headerName? line with
    | some name => (name, leadingEntries rest) :: headed rest
    | none => headed rest

/-- The definitions without the last one, if that has no entries. -/
def withoutHollowEnd (ds : List Definition) : List Definition :=
  if ds.getLast?.any (·.2.isEmpty) then ds.dropLast else ds

/-- The definitions that a section makes: all but a hollow last one, and only those with a name. -/
def declared (lines : List Text) : List Definition :=
  (withoutHollowEnd (headed lines)).filter (·.1 ≠ [])

/-- The patch of a definition, in the state in which every patch starts. -/
def ofDefinition (userDefined : Bool) (d : Definition) : Patch :=
  { name := d.1, entries := d.2, userDefined }

/-- The definition of a patch. -/
def definition (p : Patch) : Definition := (p.name, p.entries)

/-! ## Line by line -/

theorem leadingEntries_of_header {line name : Text} (h : headerName? line = some name)
    (rest : List Text) : leadingEntries (line :: rest) = [] := by
  simp [leadingEntries, h]

theorem leadingEntries_of_entry {line : Text} {e : Entry} (h : headerName? line = none)
    (he : Entry.decode? line = some e) (rest : List Text) :
    leadingEntries (line :: rest) = e :: leadingEntries rest := by
  simp [leadingEntries, h, he]

theorem leadingEntries_of_other {line : Text} (h : headerName? line = none)
    (he : Entry.decode? line = none) (rest : List Text) :
    leadingEntries (line :: rest) = leadingEntries rest := by
  simp [leadingEntries, h, he]

theorem headed_of_header {line name : Text} (h : headerName? line = some name)
    (rest : List Text) : headed (line :: rest) = (name, leadingEntries rest) :: headed rest := by
  simp [headed, h]

theorem headed_of_other {line : Text} (h : headerName? line = none) (rest : List Text) :
    headed (line :: rest) = headed rest := by
  simp [headed, h]

/-- Only a last definition is ever left out for want of entries. -/
theorem withoutHollowEnd_cons_cons (d e : Definition) (ds : List Definition) :
    withoutHollowEnd (d :: e :: ds) = d :: withoutHollowEnd (e :: ds) := by
  simp only [withoutHollowEnd, List.getLast?_cons_cons]
  split <;> rfl

theorem withoutHollowEnd_sublist (ds : List Definition) : (withoutHollowEnd ds).Sublist ds := by
  rw [withoutHollowEnd]
  split
  · exact List.dropLast_sublist ds
  · exact List.Sublist.refl ds

/-! ## What is known of a definition -/

/-- The name of a definition stands on a `$` line, and its entries were decoded. -/
theorem mem_headed {lines : List Text} {d : Definition} (h : d ∈ headed lines) :
    ('$' :: d.1) ∈ lines ∧ ∀ e ∈ d.2, e.normal = e := by
  induction lines with
  | nil => exact absurd h List.not_mem_nil
  | cons line rest ih =>
    have hrest : d ∈ headed rest → ('$' :: d.1) ∈ line :: rest ∧ ∀ e ∈ d.2, e.normal = e :=
      fun hd => ⟨List.mem_cons_of_mem line (ih hd).1, (ih hd).2⟩
    cases hline : headerName? line with
    | none =>
      rw [headed_of_other hline] at h
      exact hrest h
    | some name =>
      rw [headed_of_header hline] at h
      rcases List.mem_cons.1 h with rfl | h
      · have hdollar : line = '$' :: name := Text.stripStart?_eq_some_iff.1 hline
        refine ⟨hdollar ▸ List.mem_cons_self, fun e he => ?_⟩
        obtain ⟨source, -, hdecode⟩ := List.mem_filterMap.1 he
        exact Entry.normal_of_decode? hdecode
      · exact hrest h

/-- What a section declares has a name, which stands on a `$` line, and decoded entries. -/
theorem mem_declared {lines : List Text} {d : Definition} (h : d ∈ declared lines) :
    d.1 ≠ [] ∧ ('$' :: d.1) ∈ lines ∧ ∀ e ∈ d.2, e.normal = e := by
  obtain ⟨hmem, hname⟩ := List.mem_filter.1 h
  exact ⟨by simpa using hname, mem_headed ((withoutHollowEnd_sublist _).subset hmem)⟩

/-! ## The scan -/

namespace Definitions

/-- The patch that is open is the patch of its definition, as far as it can be kept at all. -/
def Sound (userDefined : Bool) (d : Definitions) : Prop :=
  d.current.name ≠ [] → d.current = ofDefinition userDefined d.current.definition

/-- A `$` line leaves a patch open that has nothing but its name. -/
theorem sound_openPatch (userDefined : Bool) (d : Definitions) (name : Text) :
    Sound userDefined (d.openPatch name userDefined) := fun _ => rfl

theorem Sound.addEntry {userDefined : Bool} {d : Definitions} (h : d.Sound userDefined)
    (e : Entry) : (d.addEntry e).Sound userDefined := by
  intro hname
  have hcurrent : d.current = ofDefinition userDefined d.current.definition := h hname
  show { d.current with entries := d.current.entries ++ [e] } = _
  rw [hcurrent]
  rfl

/-- The end of a section keeps the open patch if its definition is kept. -/
theorem patches_eq {userDefined : Bool} {d : Definitions} (h : d.Sound userDefined) :
    d.patches = d.closed ++
      ((withoutHollowEnd [d.current.definition]).filter (·.1 ≠ [])).map
        (ofDefinition userDefined) := by
  rw [patches]
  by_cases hname : d.current.name = []
  · simp only [hname, true_or, if_true, withoutHollowEnd]
    split <;> simp [definition, hname]
  · by_cases hentries : d.current.entries = []
    · simp [hentries, withoutHollowEnd, definition]
    · rw [if_neg (by simp [hname, hentries]), h hname]
      simp [hentries, withoutHollowEnd, definition, ofDefinition, hname]

/-- A `$` line closes the open patch if it has a name. -/
theorem closed_openPatch {userDefined : Bool} {d : Definitions} (h : d.Sound userDefined)
    (name : Text) :
    (d.openPatch name userDefined).closed = d.closed ++
      ([d.current.definition].filter (·.1 ≠ [])).map (ofDefinition userDefined) := by
  rw [openPatch]
  by_cases hname : d.current.name = []
  · simp [definition, hname]
  · simp only [if_neg hname]
    rw [h hname]
    simp [definition, ofDefinition, hname]

end Definitions

/-- **The scan from a state on**: the patches closed so far, then those of the definition that is
open, with the entries still to come for it, and of the definitions after it. -/
theorem patches_foldl_step {userDefined : Bool} (lines : List Text) {d : Definitions}
    (h : d.Sound userDefined) :
    (lines.foldl (Definitions.step userDefined) d).patches = d.closed ++
      ((withoutHollowEnd ((d.current.name, d.current.entries ++ leadingEntries lines) ::
        headed lines)).filter (·.1 ≠ [])).map (ofDefinition userDefined) := by
  -- the state is generalized, as every line but the passed over ones changes it
  induction lines generalizing d with
  | nil =>
    simp only [leadingEntries, List.takeWhile_nil, List.filterMap_nil, List.append_nil]
    exact d.patches_eq h
  | cons line rest ih =>
    rw [List.foldl_cons]
    cases hline : headerName? line with
    | some name =>
      -- the open definition is complete, and not the last one, so entries or not it stays
      have hstep : Definitions.step userDefined d line = d.openPatch name userDefined := by
        simp [Definitions.step, hline]
      rw [hstep, ih (d.sound_openPatch userDefined name), d.closed_openPatch h,
        leadingEntries_of_header hline, headed_of_header hline, withoutHollowEnd_cons_cons,
        List.append_nil, List.append_assoc, ← List.map_append, ← List.filter_append]
      rfl
    | none =>
      cases hentry : Entry.decode? line with
      | some e =>
        have hstep : Definitions.step userDefined d line = d.addEntry e := by
          simp [Definitions.step, hline, hentry]
        rw [hstep, ih (h.addEntry e), leadingEntries_of_entry hline hentry, headed_of_other hline]
        simp [Definitions.addEntry]
      | none =>
        have hstep : Definitions.step userDefined d line = d := by
          simp [Definitions.step, hline, hentry]
        rw [hstep, ih h, leadingEntries_of_other hline hentry, headed_of_other hline]

/-- Entries before the first `$` line make no definition. -/
theorem filter_withoutHollowEnd_cons (entries : List Entry) (ds : List Definition) :
    (withoutHollowEnd (([], entries) :: ds)).filter (·.1 ≠ []) =
      (withoutHollowEnd ds).filter (·.1 ≠ []) := by
  cases ds with
  | nil =>
    rw [withoutHollowEnd]
    split <;> rfl
  | cons d rest =>
    rw [withoutHollowEnd_cons_cons]
    rfl

/-- The lines of a section define the declared patches. -/
theorem define_eq_declared (userDefined : Bool) (lines : List Text) :
    define userDefined lines = (declared lines).map (ofDefinition userDefined) := by
  have hstart : Definitions.Sound userDefined {} := fun h => absurd rfl h
  rw [define, patches_foldl_step lines hstart, filter_withoutHollowEnd_cons]
  rfl

end FramePatch.Patch
