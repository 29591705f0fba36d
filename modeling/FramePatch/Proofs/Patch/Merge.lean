import FramePatch.Proofs.Patch.Definitions
import FramePatch.Proofs.Patch.Toggles

/-!
# The meaning of merging

The merged list is the shipped part and then the user's, each with the patches that its section
declares. What state a patch is in depends on its name and on the four sets of names that the
companion sections list, and on nothing else.

- `merge_eq_toggleAll`: merging defines patches in their default state and then runs the toggles of
  the user's companion sections over them.
- `merge_eq_declared`: the same, patch by patch.
-/

namespace FramePatch.Patch

/-! ## Before the user's overrides -/

/-- The shipped patches, in the state that the shipped configuration gives them. -/
def defaults (name : Text) (shipped : Source) : List Patch :=
  (overrideBy shipped name (define false (shipped.lines name))).map asShipped

/-- The patches of both sources, all in their default state. -/
def unmodified (name : Text) (shipped user : Source) : List Patch :=
  defaults name shipped ++ define true (user.lines name)

/-- **Merging** is a run of toggles over the patches of both sources in their default state. -/
theorem merge_eq_toggleAll (name : Text) (shipped user : Source) :
    merge name shipped user = toggleAll (companionToggles user name)
      (unmodified name shipped user) :=
  overrideBy_eq_toggleAll user name _

/-- What is off at first is on under two lists exactly if it is on the one and not on the other. -/
theorem ite_listed {on off : Prop} [Decidable on] [Decidable off] :
    (if off then false else if on then true else false) = decide (on ∧ ¬off) := by
  by_cases hoff : off
  · simp [hoff]
  · by_cases hon : on
    · simp [hon, hoff]
    · simp [hon, hoff]

/-- A shipped patch is on exactly if the shipped configuration lists it as enabled only. -/
theorem defaults_eq_declared (name : Text) (shipped : Source) :
    defaults name shipped = (declared (shipped.lines name)).map fun d =>
      let on := decide (d.1 ∈ shipped.listed (enabledSection name) ∧
        d.1 ∉ shipped.listed (disabledSection name))
      { name := d.1, entries := d.2, enabled := on, defaultEnabled := on } := by
  rw [defaults, overrideBy_eq_toggleAll, toggleAll_eq_map, define_eq_declared, List.map_map,
    List.map_map]
  refine List.map_congr_left fun d _ => ?_
  simp only [Function.comp, toggled_companionToggles, ofDefinition, ite_listed, asShipped]

/-- Nothing is overridden before the user's overrides. -/
theorem map_atDefault_unmodified (name : Text) (shipped user : Source) :
    (unmodified name shipped user).map atDefault = unmodified name shipped user := by
  rw [unmodified, List.map_append, defaults, List.map_map, define_eq_declared true, List.map_map]
  rfl

/-- Patches of one name agree in every merged list. -/
theorem statesAgree_merge (name : Text) (shipped user : Source) :
    StatesAgree (merge name shipped user) := by
  rw [merge_eq_toggleAll]
  exact (statesAgree_of_atDefault (map_atDefault_unmodified name shipped user)).toggleAll _

/-! ## The merged list -/

/-- **The merged list, patch by patch.** The shipped part comes first, then the user's; each has the
patches that its section declares, in their order. With the names listed by the companion sections,
`GE` and `GD` of the shipped configuration and `LE` and `LD` of the user's:

* a shipped patch is on by default if its name is in `GE` and not in `GD`; it is off if the name is
  in `LD`, else on if it is in `LE`, else as by default;
* a patch of the user's is off by default, and on if its name is in `LE` and not in `LD`. -/
theorem merge_eq_declared (name : Text) (shipped user : Source) :
    let GE := shipped.listed (enabledSection name)
    let GD := shipped.listed (disabledSection name)
    let LE := user.listed (enabledSection name)
    let LD := user.listed (disabledSection name)
    merge name shipped user =
      ((declared (shipped.lines name)).map fun d =>
        { name := d.1
          entries := d.2
          enabled :=
            if d.1 ∈ LD then false
            else if d.1 ∈ LE then true
            else decide (d.1 ∈ GE ∧ d.1 ∉ GD)
          defaultEnabled := decide (d.1 ∈ GE ∧ d.1 ∉ GD)
          userDefined := false }) ++
      ((declared (user.lines name)).map fun d =>
        { name := d.1
          entries := d.2
          enabled := decide (d.1 ∈ LE ∧ d.1 ∉ LD)
          defaultEnabled := false
          userDefined := true }) := by
  intro GE GD LE LD
  rw [merge_eq_toggleAll, toggleAll_eq_map, unmodified, List.map_append, defaults_eq_declared,
    define_eq_declared, List.map_map, List.map_map]
  congr 1
  · -- the shipped patches start from their default
    refine List.map_congr_left fun d _ => ?_
    simp only [Function.comp, toggled_companionToggles]
    rfl
  · -- and the user's patches start disabled
    refine List.map_congr_left fun d _ => ?_
    simp only [Function.comp, toggled_companionToggles, ofDefinition, ite_listed]
    rfl

end FramePatch.Patch
