import FramePatch.Patch.Merge

/-!
# Toggles by name

Everything that turns patches on and off after they are defined is a run of toggles by name: the
companion sections of a configuration (`overrideBy_eq_toggleAll`) as well as the user's own
toggles. So one account of such runs serves both.

- `toggleAll_eq_map`: a run acts on each patch alone, and only the last toggle of its name counts.
- `StatesAgree`: patches of one name that differ in state are all in their default state. A patch
  list in its default state has this, and no toggle can break it (`StatesAgree.toggleAll`), as a
  toggle gives one state to all patches of its name.
-/

namespace FramePatch

/-- The names on the `$` lines of a section. -/
def Source.listed (source : Source) (name : Text) : List Text :=
  (source.lines name).filterMap Patch.headerName?

namespace Patch

/-! ## Runs -/

/-- The patches after toggles, each a name and the state to be given to all patches of it. -/
def toggleAll (toggles : List (Text × Bool)) (patches : List Patch) : List Patch :=
  toggles.foldl (fun ps t => setEnabled t.1 t.2 ps) patches

/-- The state that the last toggle of a name gives, if there is one. -/
def lastFlag? (toggles : List (Text × Bool)) (name : Text) : Option Bool :=
  (toggles.findRev? fun t => t.1 == name).map (·.2)

/-- One patch after toggles. -/
def toggled (toggles : List (Text × Bool)) (p : Patch) : Patch :=
  { p with enabled := (lastFlag? toggles p.name).getD p.enabled }

theorem toggleAll_append (ts us : List (Text × Bool)) (patches : List Patch) :
    toggleAll (ts ++ us) patches = toggleAll us (toggleAll ts patches) :=
  List.foldl_append

/-- Of two runs in a row, the first one counts only where the second one is silent. -/
theorem lastFlag?_append (ts us : List (Text × Bool)) (name : Text) :
    lastFlag? (ts ++ us) name = (lastFlag? us name).or (lastFlag? ts name) := by
  simp only [lastFlag?, List.findRev?_eq_find?_reverse, List.reverse_append, List.find?_append]
  cases us.reverse.find? fun t => t.1 == name <;> rfl

/-- A run that gives one state to some names is silent about the others. -/
theorem lastFlag?_map_const (names : List Text) (flag : Bool) (name : Text) :
    lastFlag? (names.map fun n => (n, flag)) name = if name ∈ names then some flag else none := by
  induction names with
  | nil => rfl
  | cons n rest ih =>
    -- the last toggle counts, so the rest of the names comes before the first one
    have hsplit : (n :: rest).map (fun m => (m, flag)) =
        [(n, flag)] ++ rest.map fun m => (m, flag) := rfl
    rw [hsplit, lastFlag?_append, ih]
    by_cases hrest : name ∈ rest
    · simp [hrest]
    · by_cases hn : n = name
      · simp [lastFlag?, List.findRev?, hrest, hn]
      · simp [lastFlag?, List.findRev?, hrest, hn, Ne.symm hn]

/-- A toggle acts on each patch alone. -/
theorem setEnabled_eq_map (name : Text) (enabled : Bool) (patches : List Patch) :
    setEnabled name enabled patches = patches.map (toggled [(name, enabled)]) := by
  refine List.map_congr_left fun p _ => ?_
  by_cases hp : p.name = name
  · simp [toggled, lastFlag?, List.findRev?, hp]
  · simp [toggled, lastFlag?, List.findRev?, hp, Ne.symm hp]

theorem toggled_append (ts us : List (Text × Bool)) (p : Patch) :
    toggled (ts ++ us) p = toggled us (toggled ts p) := by
  simp only [toggled, lastFlag?_append]
  cases lastFlag? us p.name <;> rfl

/-- **A run of toggles** acts on each patch alone: the last toggle of its name gives its state. -/
theorem toggleAll_eq_map (toggles : List (Text × Bool)) (patches : List Patch) :
    toggleAll toggles patches = patches.map (toggled toggles) := by
  induction toggles generalizing patches with
  | nil => exact (List.map_id patches).symm
  | cons t rest ih =>
    have hrun : toggleAll (t :: rest) patches = toggleAll rest (setEnabled t.1 t.2 patches) := rfl
    have hstep : toggled rest ∘ toggled [t] = toggled (t :: rest) :=
      funext fun p => (toggled_append [t] rest p).symm
    rw [hrun, ih, setEnabled_eq_map, List.map_map, hstep]

/-! ## Default states -/

/-- The patch in the state that the shipped configuration gives it. -/
def atDefault (p : Patch) : Patch := { p with enabled := p.defaultEnabled }

/-- Toggles are forgotten in the default state. -/
@[simp] theorem map_atDefault_toggleAll (toggles : List (Text × Bool)) (patches : List Patch) :
    (toggleAll toggles patches).map atDefault = patches.map atDefault := by
  rw [toggleAll_eq_map, List.map_map]
  rfl

/-! ## Patches of one name -/

/-- Patches of one name that differ in state are in their default state. -/
def StatesAgree (patches : List Patch) : Prop :=
  ∀ p ∈ patches, ∀ q ∈ patches, p.name = q.name → p.enabled ≠ q.enabled → p.isOverridden = false

/-- Patches in their default state agree. -/
theorem statesAgree_of_atDefault {patches : List Patch} (h : patches.map atDefault = patches) :
    StatesAgree patches := by
  intro p hp q _ _ _
  obtain ⟨r, -, rfl⟩ := List.mem_map.1 (h.symm ▸ hp)
  simp [isOverridden, atDefault]

/-- A patch is in the state of every overridden patch of its name. -/
theorem StatesAgree.enabled_eq {patches : List Patch} (h : StatesAgree patches) {p q : Patch}
    (hp : p ∈ patches) (hq : q ∈ patches) (hname : q.name = p.name) (hover : q.isOverridden) :
    p.enabled = q.enabled := by
  by_cases hstate : p.enabled = q.enabled
  · exact hstate
  · have hdefault : q.isOverridden = false := h q hq p hp hname (Ne.symm hstate)
    exact absurd (hdefault.symm.trans hover) Bool.false_ne_true

/-- Patches of one name agree after every run, if they did before: a run either gives one state to
all of them or leaves all of them alone. -/
theorem StatesAgree.toggleAll {patches : List Patch} (h : StatesAgree patches)
    (toggles : List (Text × Bool)) : StatesAgree (toggleAll toggles patches) := by
  rw [toggleAll_eq_map]
  intro p hp q hq hname hstate
  obtain ⟨p', hp', rfl⟩ := List.mem_map.1 hp
  obtain ⟨q', hq', rfl⟩ := List.mem_map.1 hq
  have hname' : p'.name = q'.name := hname
  rw [toggled, toggled, ← hname'] at hstate
  cases hflag : lastFlag? toggles p'.name with
  | some flag =>
    -- the run names both patches, so both are in the same state now
    simp [hflag] at hstate
  | none =>
    have hp_same : toggled toggles p' = p' := by simp [toggled, hflag]
    rw [hp_same]
    exact h p' hp' q' hq' hname' (by simpa [hflag] using hstate)

/-! ## Companion sections -/

/-- The toggles that the companion sections of a source stand for. -/
def companionToggles (source : Source) (name : Text) : List (Text × Bool) :=
  (source.listed (enabledSection name)).map (fun n => (n, true)) ++
    (source.listed (disabledSection name)).map fun n => (n, false)

theorem override_eq_toggleAll (enabled : Bool) (lines : List Text) (patches : List Patch) :
    override enabled lines patches =
      toggleAll ((lines.filterMap headerName?).map fun n => (n, enabled)) patches := by
  rw [override, toggleAll, List.foldl_map]

/-- Applying the companion sections is a run of toggles. -/
theorem overrideBy_eq_toggleAll (source : Source) (name : Text) (patches : List Patch) :
    overrideBy source name patches = toggleAll (companionToggles source name) patches := by
  rw [overrideBy, override_eq_toggleAll, override_eq_toggleAll, companionToggles, toggleAll_append]
  rfl

/-- Of the companion sections, the one that turns off has the last word. -/
theorem lastFlag?_companionToggles (source : Source) (section_ name : Text) :
    lastFlag? (companionToggles source section_) name =
      if name ∈ source.listed (disabledSection section_) then some false
      else if name ∈ source.listed (enabledSection section_) then some true
      else none := by
  rw [companionToggles, lastFlag?_append, lastFlag?_map_const, lastFlag?_map_const]
  split <;> rfl

/-- One patch under the companion sections of a source. -/
theorem toggled_companionToggles (source : Source) (section_ : Text) (p : Patch) :
    toggled (companionToggles source section_) p =
      { p with
        enabled :=
          if p.name ∈ source.listed (disabledSection section_) then false
          else if p.name ∈ source.listed (enabledSection section_) then true
          else p.enabled } := by
  rw [toggled, lastFlag?_companionToggles]
  by_cases hd : p.name ∈ source.listed (disabledSection section_)
  · rw [if_pos hd, if_pos hd]
    rfl
  · by_cases he : p.name ∈ source.listed (enabledSection section_)
    · rw [if_neg hd, if_neg hd, if_pos he, if_pos he]
      rfl
    · rw [if_neg hd, if_neg hd, if_neg he, if_neg he]
      rfl

end Patch

end FramePatch
