import FramePatch.Patch.Save
import FramePatch.Proofs.Ini.Edits
import FramePatch.Proofs.Ini.EffectiveLines
import FramePatch.Proofs.Patch.Merge

/-!
# Saving and merging again

Saving a merged patch list and merging again gives the list back, but for one thing: the scan of a
section drops a last patch without entries, so the list loses its last patch if that is the user's
and has none (`recalled`).

- `Descends`: the invariant. The list differs from what the two sources define in state only, and
  patches of one name agree. Merging gives such a list (`descends_merge`), and toggles keep it one
  (`Descends.toggleAll`).
- `declared_definitionLines`: the saved definitions are read as the definitions of the patches.
- `toggled_atDefault`: the saved names turn the default states into the states that were
  saved. This is where agreement is needed, as names are all that is saved.
- `merge_store_save`: the whole cycle.
-/

namespace FramePatch.Patch

/-! ## Lines of patches -/

theorem headerName?_headerLine (p : Patch) : headerName? p.headerLine = some p.name :=
  Text.stripStart?_eq_some_iff.2 rfl

theorem headerName?_encode (e : Entry) : headerName? e.encode = none := by
  obtain ⟨rest, hdigit⟩ := e.exists_encode_eq_cons
  rw [hdigit]
  rfl

/-- The header lines of patches name these patches. -/
theorem filterMap_headerLine (ps : List Patch) :
    (ps.map headerLine).filterMap headerName? = ps.map (·.name) := by
  rw [List.filterMap_map]
  exact List.filterMap_eq_map_iff_forall_eq_some.2 fun p _ => headerName?_headerLine p

/-- Printed entries are read as entries of the definition they are in. -/
theorem leadingEntries_encode {es : List Entry} (h : ∀ e ∈ es, e.normal = e) (rest : List Text) :
    leadingEntries (es.map Entry.encode ++ rest) = es ++ leadingEntries rest := by
  induction es with
  | nil => rfl
  | cons e es ih =>
    have hread : Entry.decode? e.encode = some e := by
      rw [e.decode?_encode, h e List.mem_cons_self]
    rw [List.map_cons, List.cons_append, leadingEntries_of_entry (headerName?_encode e) hread,
      ih fun f hf => h f (List.mem_cons_of_mem e hf)]
    rfl

/-- Printed entries start no definition. -/
theorem headed_encode (es : List Entry) (rest : List Text) :
    headed (es.map Entry.encode ++ rest) = headed rest := by
  induction es with
  | nil => rfl
  | cons e es ih =>
    rw [List.map_cons, List.cons_append, headed_of_other (headerName?_encode e)]
    exact ih

/-- The definition lines of patches are read as the definitions of these patches. -/
theorem headed_definitionLines {ps : List Patch} (h : ∀ p ∈ ps, ∀ e ∈ p.entries, e.normal = e) :
    headed (ps.flatMap definitionLines) = ps.map definition := by
  induction ps with
  | nil => rfl
  | cons p rest ih =>
    -- the next patch, if any, starts with its header line
    have hnext : leadingEntries (rest.flatMap definitionLines) = [] := by
      cases rest with
      | nil => rfl
      | cons q rest => exact leadingEntries_of_header (headerName?_headerLine q) _
    have hrest := ih fun q hq => h q (List.mem_cons_of_mem p hq)
    rw [List.flatMap_cons, definitionLines, List.cons_append,
      headed_of_header (headerName?_headerLine p), leadingEntries_encode (h p List.mem_cons_self),
      headed_encode, hnext, hrest, List.append_nil]
    rfl

/-! ## What a save recalls -/

/-- Whether the last patch is the user's and has no entries. -/
def endsHollow (ps : List Patch) : Bool :=
  ps.getLast?.any fun p => p.userDefined && p.entries.isEmpty

/-- The patches that are there again after a save: all but a hollow last one of the user's. -/
def recalled (ps : List Patch) : List Patch := if endsHollow ps then ps.dropLast else ps

theorem recalled_subset (ps : List Patch) : recalled ps ⊆ ps := by
  rw [recalled]
  split
  · exact List.dropLast_subset ps
  · exact List.Subset.refl ps

/-- Every patch is recalled exactly if the last one is not a hollow one of the user's. -/
theorem recalled_eq_self_iff {ps : List Patch} : recalled ps = ps ↔ endsHollow ps = false := by
  rw [recalled]
  cases hends : endsHollow ps with
  | false => exact iff_of_true rfl rfl
  | true =>
    have hne : ps ≠ [] := by
      rintro rfl
      exact Bool.false_ne_true hends
    have hshorter : ps.dropLast.length < ps.length := by
      rw [List.length_dropLast]
      exact Nat.sub_one_lt (List.length_pos_iff.2 hne).ne'
    refine iff_of_false (fun hsame => ?_) Bool.false_ne_true.symm
    exact absurd (congrArg List.length hsame) hshorter.ne

/-- Shipped patches in front are all recalled. -/
theorem recalled_append {ss vs : List Patch} (hs : ∀ p ∈ ss, p.userDefined = false) :
    recalled (ss ++ vs) = ss ++ recalled vs := by
  rcases vs.eq_nil_or_concat' with rfl | ⟨front, last, rfl⟩
  · -- without patches of the user's the last one is shipped
    have hshipped : endsHollow ss = false := by
      rw [endsHollow, Option.any_eq_false]
      intro p hp
      rw [hs p (List.mem_of_getLast? hp)]
      rfl
    rw [List.append_nil, recalled, hshipped]
    exact (List.append_nil ss).symm
  · simp only [recalled, endsHollow, ← List.append_assoc, List.getLast?_concat,
      List.dropLast_concat]
    split
    · rfl
    · exact List.append_assoc ss front [last]

/-- The saved definitions of the user's patches are read as the definitions of the recalled ones. -/
theorem declared_definitionLines {vs : List Patch} (hv : ∀ p ∈ vs, p.userDefined)
    (hnamed : ∀ p ∈ vs, p.name ≠ []) (hnormal : ∀ p ∈ vs, ∀ e ∈ p.entries, e.normal = e) :
    declared (vs.flatMap definitionLines) = (recalled vs).map definition := by
  have hhollow : withoutHollowEnd (vs.map definition) = (recalled vs).map definition := by
    rcases vs.eq_nil_or_concat' with rfl | ⟨front, last, rfl⟩
    · rfl
    · have hlast : last.userDefined := hv last List.mem_concat_self
      simp only [withoutHollowEnd, recalled, endsHollow, List.map_append, List.map_singleton,
        List.getLast?_concat, List.dropLast_concat, Option.any_some, hlast, Bool.true_and,
        definition]
      split <;> simp [definition]
  rw [declared, headed_definitionLines hnormal, hhollow]
  refine List.filter_eq_self.2 fun d hd => ?_
  obtain ⟨p, hp, rfl⟩ := List.mem_map.1 hd
  exact decide_eq_true (hnamed p (recalled_subset vs hp))

/-! ## The invariant -/

/-- A list that differs from what two sources define in state only, with patches of one name in
agreement. -/
structure Descends (name : Text) (shipped user : Source) (ps : List Patch) : Prop where
  atDefault : ps.map atDefault = unmodified name shipped user
  agree : StatesAgree ps

/-- Merging gives such a list. -/
theorem descends_merge (name : Text) (shipped user : Source) :
    Descends name shipped user (merge name shipped user) := by
  refine ⟨?_, statesAgree_merge name shipped user⟩
  rw [merge_eq_toggleAll, map_atDefault_toggleAll, map_atDefault_unmodified]

namespace Descends

variable {name : Text} {shipped user : Source} {ps : List Patch}

/-- A run of toggles keeps the list such a list. -/
theorem toggleAll (h : Descends name shipped user ps) (toggles : List (Text × Bool)) :
    Descends name shipped user (toggleAll toggles ps) := by
  refine ⟨?_, h.agree.toggleAll toggles⟩
  rw [map_atDefault_toggleAll]
  exact h.atDefault

/-- The shipped patches come first, then the user's. -/
theorem split (h : Descends name shipped user ps) : ∃ ss vs, ps = ss ++ vs ∧
    ss.map Patch.atDefault = defaults name shipped ∧
    vs.map Patch.atDefault = define true (user.lines name) :=
  List.map_eq_append_iff.1 h.atDefault

end Descends

/-- What is known of a defined patch. -/
theorem mem_define {userDefined : Bool} {lines : List Text} {p : Patch}
    (h : p ∈ define userDefined lines) :
    p = ofDefinition userDefined p.definition ∧ p.name ≠ [] ∧ p.headerLine ∈ lines ∧
      ∀ e ∈ p.entries, e.normal = e := by
  rw [define_eq_declared] at h
  obtain ⟨d, hd, rfl⟩ := List.mem_map.1 h
  exact ⟨rfl, mem_declared hd⟩

/-- What is known of a shipped patch. -/
theorem mem_defaults {name : Text} {shipped : Source} {p : Patch} (h : p ∈ defaults name shipped) :
    p.userDefined = false ∧ p.headerLine ∈ shipped.lines name := by
  rw [defaults_eq_declared] at h
  obtain ⟨d, hd, rfl⟩ := List.mem_map.1 h
  exact ⟨rfl, (mem_declared hd).2.1⟩

/-- Every patch stands on a `$` line of one of the sources. -/
theorem Descends.headerLine_mem {name : Text} {shipped user : Source} {ps : List Patch}
    (h : Descends name shipped user ps) {p : Patch} (hp : p ∈ ps) :
    p.headerLine ∈ shipped.lines name ∨ p.headerLine ∈ user.lines name := by
  have hdefault : p.atDefault ∈ unmodified name shipped user :=
    h.atDefault ▸ List.mem_map_of_mem hp
  rcases List.mem_append.1 hdefault with hs | hu
  · exact .inl (mem_defaults hs).2
  · exact .inr (mem_define hu).2.2.1

/-! ## States from names -/

/-- The source holds the lines of a save in a section and its companions. -/
structure SectionLines.HeldBy (l : SectionLines) (source : Source) (name : Text) : Prop where
  definitions : source.lines name = l.definitions
  enabled : source.lines (enabledSection name) = l.enabled
  disabled : source.lines (disabledSection name) = l.disabled

/-- The names on the header lines of some patches are the names of these patches. -/
theorem mem_names_iff {ps : List Patch} {keep : Patch → Bool} {n : Text} :
    n ∈ ((ps.filter keep).map headerLine).filterMap headerName? ↔
      ∃ q ∈ ps, keep q ∧ q.name = n := by
  rw [filterMap_headerLine, List.mem_map]
  constructor
  · rintro ⟨q, hq, hn⟩
    exact ⟨q, (List.mem_filter.1 hq).1, (List.mem_filter.1 hq).2, hn⟩
  · rintro ⟨q, hq, hkeep, hn⟩
    exact ⟨q, List.mem_filter.2 ⟨hq, hkeep⟩, hn⟩

namespace SectionLines.HeldBy

variable {ps : List Patch} {source : Source} {name n : Text}

/-- The names listed as enabled are those of the overridden patches that are on. -/
theorem mem_enabled_iff (h : (save ps).HeldBy source name) :
    n ∈ source.listed (enabledSection name) ↔
      ∃ q ∈ ps, (q.isOverridden ∧ q.enabled) ∧ q.name = n := by
  rw [Source.listed, h.enabled]
  simp only [← Bool.and_eq_true]
  exact mem_names_iff

/-- The names listed as disabled are those of the overridden patches that are off. -/
theorem mem_disabled_iff (h : (save ps).HeldBy source name) :
    n ∈ source.listed (disabledSection name) ↔
      ∃ q ∈ ps, (q.isOverridden ∧ q.enabled = false) ∧ q.name = n := by
  rw [Source.listed, h.disabled]
  simp only [← Bool.not_eq_true', ← Bool.and_eq_true]
  exact mem_names_iff

end SectionLines.HeldBy

/-- The saved names turn the default state of a patch into its saved state. -/
theorem toggled_atDefault {ps : List Patch} (agree : StatesAgree ps) {source : Source} {name : Text}
    (hsource : (save ps).HeldBy source name) {p : Patch} (hp : p ∈ ps) :
    toggled (companionToggles source name) p.atDefault = p := by
  have hstate : (if p.name ∈ source.listed (disabledSection name) then false
      else if p.name ∈ source.listed (enabledSection name) then true
      else p.defaultEnabled) = p.enabled := by
    by_cases hd : p.name ∈ source.listed (disabledSection name)
    · -- listed for the sake of an overridden patch, with which `p` agrees
      obtain ⟨q, hq, ⟨hover, hoff⟩, hname⟩ := hsource.mem_disabled_iff.1 hd
      rw [if_pos hd, agree.enabled_eq hp hq hname hover, hoff]
    · by_cases he : p.name ∈ source.listed (enabledSection name)
      · obtain ⟨q, hq, ⟨hover, hon⟩, hname⟩ := hsource.mem_enabled_iff.1 he
        rw [if_neg hd, if_pos he, agree.enabled_eq hp hq hname hover, hon]
      · -- a name on neither list is not that of an overridden patch
        have hnot : p.isOverridden = false := by
          rw [Bool.eq_false_iff]
          intro hover
          cases hstate : p.enabled with
          | true => exact he (hsource.mem_enabled_iff.2 ⟨p, hp, ⟨hover, hstate⟩, rfl⟩)
          | false => exact hd (hsource.mem_disabled_iff.2 ⟨p, hp, ⟨hover, hstate⟩, rfl⟩)
        rw [if_neg hd, if_neg he]
        exact (bne_eq_false_iff_eq.1 hnot).symm
  rw [toggled_companionToggles]
  exact congrArg (fun enabled => { p with enabled }) hstate

/-! ## The cycle -/

/-- The saved definitions are those of the user's patches. -/
theorem definitions_save {ss vs : List Patch} (hs : ∀ p ∈ ss, p.userDefined = false)
    (hv : ∀ p ∈ vs, p.userDefined) :
    (save (ss ++ vs)).definitions = vs.flatMap definitionLines := by
  have hnone : ss.filter (·.userDefined) = [] :=
    List.filter_eq_nil_iff.2 fun p hp => Bool.eq_false_iff.1 (hs p hp)
  show ((ss ++ vs).filter (·.userDefined)).flatMap definitionLines = _
  rw [List.filter_append, hnone, List.filter_eq_self.2 hv]
  rfl

/-- **Merging what was saved** gives the recalled patches, each as it was. -/
theorem Descends.merge_of_heldBy {name : Text} {shipped user : Source} {ps : List Patch}
    (h : Descends name shipped user ps) {saved : Source} (hsaved : (save ps).HeldBy saved name) :
    merge name shipped saved = recalled ps := by
  obtain ⟨ss, vs, rfl, hss, hvs⟩ := h.split
  have hshipped : ∀ p ∈ ss, p.userDefined = false := fun p hp =>
    (mem_defaults (hss ▸ List.mem_map_of_mem hp : p.atDefault ∈ defaults name shipped)).1
  have huser : ∀ p ∈ vs, p.atDefault = ofDefinition true p.definition ∧ p.name ≠ [] ∧
      ∀ e ∈ p.entries, e.normal = e := fun p hp =>
    have hdefined : p.atDefault ∈ define true (user.lines name) := hvs ▸ List.mem_map_of_mem hp
    ⟨(mem_define hdefined).1, (mem_define hdefined).2.1, (mem_define hdefined).2.2.2⟩
  have huserDefined : ∀ p ∈ vs, p.userDefined := fun p hp =>
    congrArg Patch.userDefined (huser p hp).1
  have hlines : declared (saved.lines name) = (recalled vs).map definition := by
    rw [hsaved.definitions, definitions_save hshipped huserDefined]
    exact declared_definitionLines huserDefined (fun p hp => (huser p hp).2.1)
      fun p hp => (huser p hp).2.2
  have hstart : unmodified name shipped saved = (recalled (ss ++ vs)).map Patch.atDefault := by
    rw [unmodified, ← hss, define_eq_declared, hlines, List.map_map, recalled_append hshipped,
      List.map_append]
    congr 1
    exact List.map_congr_left fun p hp => (huser p (recalled_subset vs hp)).1.symm
  rw [merge_eq_toggleAll, hstart, toggleAll_eq_map, List.map_map]
  refine (List.map_congr_left fun p hp => ?_).trans (List.map_id _)
  exact toggled_atDefault h.agree hsaved (recalled_subset _ hp)

/-! ## Stores -/

/-- Names of different lengths are different sections. -/
theorem fold_ne_of_length {a b : Text} (h : a.length ≠ b.length) : Text.fold a ≠ Text.fold b := by
  intro hab
  have hlength : (Text.fold a).length = (Text.fold b).length := congrArg List.length hab
  rw [Text.fold, Text.fold, List.length_map, List.length_map] at hlength
  exact h hlength

theorem length_enabledSection (name : Text) : (enabledSection name).length = name.length + 8 :=
  List.length_append

theorem length_disabledSection (name : Text) : (disabledSection name).length = name.length + 9 :=
  List.length_append

theorem fold_enabledSection_ne (name : Text) :
    Text.fold (enabledSection name) ≠ Text.fold name := by
  have henabled := length_enabledSection name
  exact fold_ne_of_length (by omega)

theorem fold_disabledSection_ne (name : Text) :
    Text.fold (disabledSection name) ≠ Text.fold name := by
  have hdisabled := length_disabledSection name
  exact fold_ne_of_length (by omega)

theorem fold_enabledSection_ne_disabledSection (name : Text) :
    Text.fold (enabledSection name) ≠ Text.fold (disabledSection name) := by
  have henabled := length_enabledSection name
  have hdisabled := length_disabledSection name
  exact fold_ne_of_length (by omega)

/-- The line is one of those to be stored, in whichever section. -/
def SectionLines.Has (l : SectionLines) (line : Text) : Prop :=
  line ∈ l.definitions ∨ line ∈ l.enabled ∨ line ∈ l.disabled

/-- Every saved line names a patch or prints an entry. -/
theorem of_save_has {ps : List Patch} {line : Text} (h : (save ps).Has line) :
    ∃ p ∈ ps, line = p.headerLine ∨ ∃ e : Entry, line = e.encode := by
  rcases h with h | h | h
  · obtain ⟨p, hp, hline⟩ := List.mem_flatMap.1 h
    refine ⟨p, (List.mem_filter.1 hp).1, ?_⟩
    rcases List.mem_cons.1 hline with hheader | hentry
    · exact .inl hheader
    · obtain ⟨e, -, rfl⟩ := List.mem_map.1 hentry
      exact .inr ⟨e, rfl⟩
  · obtain ⟨p, hp, rfl⟩ := List.mem_map.1 h
    exact ⟨p, (List.mem_filter.1 hp).1, .inl rfl⟩
  · obtain ⟨p, hp, rfl⟩ := List.mem_map.1 h
    exact ⟨p, (List.mem_filter.1 hp).1, .inl rfl⟩

/-- The three sections of a name differ, so what is stored in them is all held there. -/
theorem SectionLines.heldBy_store {l : SectionLines} (store : Ini.Store) (name : Text)
    (h : ∀ line, l.Has line → '#' ∉ line) :
    l.HeldBy (l.store store name).toSource name := by
  have hed := fold_enabledSection_ne_disabledSection name
  have he := fold_enabledSection_ne name
  have hd := fold_disabledSection_ne name
  constructor
  · exact Ini.Store.lines_setLines_self _ _ fun line hline => h line (.inl hline)
  · show ((l.store store name).lines (enabledSection name)) = l.enabled
    rw [SectionLines.store, Ini.Store.lines_setLines_other _ _ he,
      Ini.Store.lines_setLines_other _ _ hed]
    exact Ini.Store.lines_setLines_self _ _ fun line hline => h line (.inr (.inl hline))
  · show ((l.store store name).lines (disabledSection name)) = l.disabled
    rw [SectionLines.store, Ini.Store.lines_setLines_other _ _ hd]
    exact Ini.Store.lines_setLines_self _ _ fun line hline => h line (.inr (.inr hline))

/-- Of two saves into one store only the second one counts: the sections are where the first one
left them, or put them, and their lines are replaced. -/
theorem SectionLines.store_store (l more : SectionLines) (store : Ini.Store) (name : Text) :
    more.store (l.store store name) name = more.store store name := by
  have hed := fold_enabledSection_ne_disabledSection name
  have he := fold_enabledSection_ne name
  have hd := fold_disabledSection_ne name
  let on := store.setLines (enabledSection name) l.enabled
  let off := on.setLines (disabledSection name) l.disabled
  have hon : on.hasSection (enabledSection name) := Ini.Store.hasSection_edit.2 (.inr rfl)
  have hoff : off.hasSection (enabledSection name) := Ini.Store.hasSection_edit.2 (.inl hon)
  have hdisabled : ((store.setLines (enabledSection name) more.enabled).setLines
      (disabledSection name) l.disabled).hasSection (disabledSection name) :=
    Ini.Store.hasSection_edit.2 (.inr rfl)
  -- every section of the second save moves forward to where the first one set it
  show (((off.setLines name l.definitions).setLines (enabledSection name) more.enabled).setLines
    (disabledSection name) more.disabled).setLines name more.definitions = _
  rw [Ini.Store.setLines_comm _ _ he hoff, Ini.Store.setLines_comm _ _ hed hon,
    Ini.Store.setLines_setLines_self, Ini.Store.setLines_comm _ _ hd hdisabled,
    Ini.Store.setLines_setLines_self, Ini.Store.setLines_setLines_self]
  rfl

/-- Merging what was stored in any store gives the recalled patches. -/
theorem Descends.merge_stored {name : Text} {shipped user : Ini.Store} {ps : List Patch}
    (h : Descends name shipped.toSource user.toSource ps) (store : Ini.Store) :
    merge name shipped.toSource ((save ps).store store name).toSource = recalled ps := by
  refine h.merge_of_heldBy (SectionLines.heldBy_store store name fun line hline => ?_)
  obtain ⟨p, hp, rfl | ⟨e, rfl⟩⟩ := of_save_has hline
  · rcases h.headerLine_mem hp with hs | hu
    · exact Ini.Store.notMem_of_mem_lines hs
    · exact Ini.Store.notMem_of_mem_lines hu
  · exact Entry.notMem_encode (by decide) (by decide)

/-- **The save cycle.** Patches that were merged, toggled in any order, saved into the user's store
and merged again are the patches before the save, all fields the same; only a last patch of the
user's that has no entries is lost. -/
theorem merge_store_save (name : Text) (shipped user : Ini.Store) (toggles : List (Text × Bool)) :
    let ps := toggleAll toggles (merge name shipped.toSource user.toSource)
    merge name shipped.toSource ((save ps).store user name).toSource =
      if endsHollow ps then ps.dropLast else ps :=
  ((descends_merge name shipped.toSource user.toSource).toggleAll toggles).merge_stored user

end FramePatch.Patch
