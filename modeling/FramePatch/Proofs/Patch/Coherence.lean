import FramePatch.Proofs.Patch.SaveCycle

/-!
# Coherent patch lists

What holds of every patch list that comes from two configurations, however it was toggled. Names are
all that a save writes down about states, and a name on both lists would come out as turned off; so
it matters that overridden patches of one name are all on or all off (`Coherent.disjoint_save`).

- `coherent_unmodified`: the patches of two configurations are coherent in their default state. Each
  field is read off the definitions that they come from.
- `Coherent.toggleAll`: toggles keep a list coherent, as they give all patches of a name one state.
- `coherent_merge`: so every merged list is coherent, as merging is a run of toggles.
-/

namespace FramePatch.Patch

/-- A list of patches as they come from two configurations, in whatever states toggles by name can
put them. -/
structure Coherent (ps : List Patch) : Prop where
  /-- Every patch has a name. -/
  named : ∀ p ∈ ps, p.name ≠ []
  /-- No name has a comment in it. -/
  uncommented : ∀ p ∈ ps, '#' ∉ p.name
  /-- No shipped patch comes after one of the user's. -/
  shippedFirst : ps.Pairwise fun p q => p.userDefined → q.userDefined
  /-- The user's patches are off by default. -/
  userDefault : ∀ p ∈ ps, p.userDefined → p.defaultEnabled = false
  /-- An entry without a condition has no comparand. -/
  comparand : ∀ p ∈ ps, ∀ e ∈ p.entries, e.conditional = false → e.comparand = 0
  /-- Patches of one name from one configuration are in one state, and have one default. -/
  sameStates : ∀ p ∈ ps, ∀ q ∈ ps, p.name = q.name → p.userDefined = q.userDefined →
    p.enabled = q.enabled ∧ p.defaultEnabled = q.defaultEnabled
  /-- Patches of one name that differ in state are not overridden, neither of them. -/
  disagree : ∀ p ∈ ps, ∀ q ∈ ps, p.name = q.name → p.enabled ≠ q.enabled →
    p.isOverridden = false ∧ q.isOverridden = false

theorem coherent_nil : Coherent [] where
  named _ h := absurd h List.not_mem_nil
  uncommented _ h := absurd h List.not_mem_nil
  shippedFirst := List.Pairwise.nil
  userDefault _ h := absurd h List.not_mem_nil
  comparand _ h := absurd h List.not_mem_nil
  sameStates _ h := absurd h List.not_mem_nil
  disagree _ h := absurd h List.not_mem_nil

/-! ## Default states -/

/-- What a section of a store declares has a name without a comment, and decoded entries. -/
theorem of_mem_declared {store : Ini.Store} {name : Text} {d : Definition}
    (h : d ∈ declared (store.lines name)) :
    d.1 ≠ [] ∧ '#' ∉ d.1 ∧ ∀ e ∈ d.2, e.normal = e := by
  obtain ⟨hname, hline, hentries⟩ := mem_declared h
  have hcomment : '#' ∉ '$' :: d.1 := Ini.Store.notMem_of_mem_lines hline
  exact ⟨hname, fun hmem => hcomment (List.mem_cons_of_mem _ hmem), hentries⟩

/-- A patch in its default state is on exactly if it is a shipped one with a name that the shipped
configuration turns on. -/
theorem of_mem_unmodified (name : Text) (shipped user : Ini.Store) :
    ∃ on : Text → Bool, ∀ p ∈ unmodified name shipped.toSource user.toSource,
      p.defaultEnabled = (!p.userDefined && on p.name) ∧ p.enabled = p.defaultEnabled ∧
      p.name ≠ [] ∧ '#' ∉ p.name ∧ ∀ e ∈ p.entries, e.normal = e := by
  refine ⟨fun n => decide (n ∈ shipped.toSource.listed (enabledSection name) ∧
    n ∉ shipped.toSource.listed (disabledSection name)), fun p hp => ?_⟩
  rw [unmodified, defaults_eq_declared, define_eq_declared] at hp
  rcases List.mem_append.1 hp with hs | hu
  · obtain ⟨d, hd, rfl⟩ := List.mem_map.1 hs
    exact ⟨rfl, rfl, of_mem_declared hd⟩
  · obtain ⟨d, hd, rfl⟩ := List.mem_map.1 hu
    exact ⟨rfl, rfl, of_mem_declared hd⟩

/-- The shipped patches come first. -/
theorem pairwise_unmodified (name : Text) (shipped user : Source) :
    (unmodified name shipped user).Pairwise fun p q => p.userDefined → q.userDefined := by
  rw [unmodified, List.pairwise_append]
  refine ⟨List.pairwise_of_forall_mem_list ?_, List.pairwise_of_forall_mem_list ?_, ?_⟩
  · intro p hp q _ huser
    rw [(mem_defaults hp).1] at huser
    exact absurd huser Bool.false_ne_true
  · intro p _ q hq _
    rw [(mem_define hq).1]
    rfl
  · intro p _ q hq _
    rw [(mem_define hq).1]
    rfl

/-- The patches of two configurations are coherent in their default state. -/
theorem coherent_unmodified (name : Text) (shipped user : Ini.Store) :
    Coherent (unmodified name shipped.toSource user.toSource) := by
  obtain ⟨on, hon⟩ := of_mem_unmodified name shipped user
  constructor
  · intro p hp
    exact (hon p hp).2.2.1
  · intro p hp
    exact (hon p hp).2.2.2.1
  · exact pairwise_unmodified name shipped.toSource user.toSource
  · intro p hp huser
    rw [(hon p hp).1, huser]
    rfl
  · intro p hp e he hcond
    rw [← (hon p hp).2.2.2.2 e he, Entry.normal, hcond]
    rfl
  · intro p hp q hq hname huser
    have hdefault : p.defaultEnabled = q.defaultEnabled := by
      rw [(hon p hp).1, (hon q hq).1, hname, huser]
    refine ⟨?_, hdefault⟩
    rw [(hon p hp).2.1, (hon q hq).2.1, hdefault]
  · intro p hp q hq _ _
    simp [isOverridden, (hon p hp).2.1, (hon q hq).2.1]

/-! ## Toggles -/

namespace Coherent

variable {ps : List Patch}

theorem statesAgree (h : Coherent ps) : StatesAgree ps :=
  fun p hp q hq hname hstate => (h.disagree p hp q hq hname hstate).1

/-- **Toggles** keep a list coherent. -/
theorem toggleAll (h : Coherent ps) (toggles : List (Text × Bool)) :
    Coherent (toggleAll toggles ps) := by
  have hagree : StatesAgree (Patch.toggleAll toggles ps) := h.statesAgree.toggleAll toggles
  rw [toggleAll_eq_map] at hagree ⊢
  constructor
  · exact List.forall_mem_map.2 h.named
  · exact List.forall_mem_map.2 h.uncommented
  · exact List.pairwise_map.2 h.shippedFirst
  · exact List.forall_mem_map.2 h.userDefault
  · exact List.forall_mem_map.2 h.comparand
  · refine List.forall_mem_map.2 fun p hp => List.forall_mem_map.2 fun q hq hname huser => ?_
    obtain ⟨henabled, hdefault⟩ := h.sameStates p hp q hq hname huser
    refine ⟨?_, hdefault⟩
    show (lastFlag? toggles p.name).getD p.enabled = (lastFlag? toggles q.name).getD q.enabled
    rw [show p.name = q.name from hname, henabled]
  · intro p hp q hq hname hstate
    exact ⟨hagree p hp q hq hname hstate, hagree q hq p hp hname.symm hstate.symm⟩

/-- **No name is saved twice**: what a coherent list lists as enabled is not listed as disabled. -/
theorem disjoint_save (h : Coherent ps) :
    ((save ps).enabled.filterMap headerName?).Disjoint
      ((save ps).disabled.filterMap headerName?) := by
  intro n hon hoff
  obtain ⟨p, hp, hpstate, rfl⟩ := mem_names_iff.1 hon
  obtain ⟨q, hq, hqstate, hname⟩ := mem_names_iff.1 hoff
  simp only [Bool.and_eq_true, Bool.not_eq_true'] at hpstate hqstate
  -- two overridden patches of one name would have to agree
  have hsame : p.enabled = q.enabled := h.statesAgree.enabled_eq hp hq hname hqstate.1
  rw [hpstate.2, hqstate.2] at hsame
  exact Bool.false_ne_true hsame.symm

end Coherent

/-- Every merged list is coherent. -/
theorem coherent_merge (name : Text) (shipped user : Ini.Store) :
    Coherent (merge name shipped.toSource user.toSource) := by
  rw [merge_eq_toggleAll]
  exact (coherent_unmodified name shipped user).toggleAll _

end FramePatch.Patch
