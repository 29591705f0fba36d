import FramePatch.Proofs.Ini.File
import FramePatch.Proofs.Patch.SaveCycle

/-!
# Persisting and loading again

What an engine makes of two configuration files, persisted and loaded again. The way leads through
all layers: the file is read back as the text that was written, the text as the store that was
printed (`Ini.Store.load_of_saveFile`), as that store is well-formed
(`Patch.Descends.wellFormed_store`), and the store as the patches that were saved
(`Patch.Descends.merge_stored`).

- `patches_setAll`: calls of `setEnabled` are a run of toggles over the patches.
- `loadFiles_of_persist`: so a second load succeeds and gives the patches that a save recalls.
- `patches_reload_eq_iff`: these are all patches exactly if the last one is not a patch of the
  user's without entries.
- `reload_forgets_patch`: such a patch is lost, enabled or not.
-/

namespace FramePatch

universe u v

/-! ## Saved stores -/

namespace Patch

/-- The lines that a save puts into a section are plain, if the configurations were well-formed. -/
theorem Descends.plainLine_of_save_has {name : Text} {shipped user : Ini.Store} {ps : List Patch}
    (h : Descends name shipped.toSource user.toSource ps) (hshipped : shipped.WellFormed)
    (huser : user.WellFormed) {line : Text} (hline : (save ps).Has line) :
    Ini.PlainLine line := by
  obtain ⟨p, hp, rfl | ⟨e, rfl⟩⟩ := of_save_has hline
  · -- the name was read from a line like this one
    have hclean : Text.Trimmed p.headerLine ∧ '\n' ∉ p.headerLine := by
      rcases h.headerLine_mem hp with hs | hu
      · exact hshipped.trimmed_of_mem_lines hs
      · exact huser.trimmed_of_mem_lines hu
    refine ⟨⟨List.cons_ne_nil _ _, hclean.1, hclean.2⟩, fun hshape => ?_⟩
    exact absurd (Option.some.inj hshape.1) (by decide)
  · obtain ⟨rest, hdigit⟩ := e.exists_encode_eq_cons
    refine ⟨⟨?_, e.trimmed_encode, Entry.notMem_encode (by decide) (by decide)⟩, fun hshape => ?_⟩
    · rw [hdigit]
      exact List.cons_ne_nil _ _
    · rw [hdigit] at hshape
      exact absurd (Option.some.inj hshape.1) (by decide)

/-- Plain lines that are stored for the patches of every frame keep a store well-formed. -/
theorem SectionLines.wellFormed_store {l : SectionLines} {store : Ini.Store}
    (hstore : store.WellFormed) (h : ∀ line, l.Has line → Ini.PlainLine line) :
    (l.store store onFrameSection).WellFormed := by
  have hname : Ini.PlainName onFrameSection := ⟨⟨by decide, by decide⟩, by decide, by decide⟩
  have henabled : Ini.PlainName (enabledSection onFrameSection) :=
    ⟨⟨by decide, by decide⟩, by decide, by decide⟩
  have hdisabled : Ini.PlainName (disabledSection onFrameSection) :=
    ⟨⟨by decide, by decide⟩, by decide, by decide⟩
  exact ((hstore.setLines henabled fun line hl => h line (.inr (.inl hl))).setLines hdisabled
    fun line hl => h line (.inr (.inr hl))).setLines hname fun line hl => h line (.inl hl)

/-- So what a save makes of the user's store is well-formed. -/
theorem Descends.wellFormed_store {shipped user : Ini.Store} {ps : List Patch}
    (h : Descends onFrameSection shipped.toSource user.toSource ps) (hshipped : shipped.WellFormed)
    (huser : user.WellFormed) : ((save ps).store user onFrameSection).WellFormed :=
  SectionLines.wellFormed_store huser fun _ hline => h.plainLine_of_save_has hshipped huser hline

end Patch

namespace Engine

variable {σ : Type u} {μ : Type v}

/-! ## Files that are there -/

/-- Loading from two files that are there is loading what their texts describe. -/
theorem loadFiles_of_readText (hooks : CodeEngines σ μ) (e : Engine σ) {t : FileTree}
    {g l shippedText userText : Text} (hg : t.readText g = .ok shippedText)
    (hl : t.readText l = .ok userText) (session : Session) :
    e.loadFiles hooks t { shipped := some g, user := some l } session =
      (e.load hooks (Ini.Store.parse shippedText).toSource (Ini.Store.parse userText).toSource
        session, .ok ()) := by
  rw [loadFiles, ConfigPaths.read_eq_ok_iff.2
    ⟨Ini.Store.load_of_readText hg, Ini.Store.load_of_readText hl⟩]

/-- Persisting saves the store with the saved lines in it. -/
theorem persist_of_readText (e : Engine σ) {t : FileTree} {l userText : Text}
    (hl : t.readText l = .ok userText) :
    e.persist t l =
      (e.save.store (Ini.Store.parse userText) Patch.onFrameSection).saveFile t l := by
  rw [persist, Ini.Store.load_of_readText hl]

/-! ## Toggles -/

/-- The engine after calls of `setEnabled`, each with a name and a state. -/
def setAll (toggles : List (Text × Bool)) (e : Engine σ) : Engine σ :=
  toggles.foldl (fun e t => (e.setEnabled t.1 t.2).1) e

/-- Calls of `setEnabled` are a run of toggles over the patches. -/
theorem patches_setAll (toggles : List (Text × Bool)) (e : Engine σ) :
    (e.setAll toggles).patches = Patch.toggleAll toggles e.patches := by
  induction toggles generalizing e with
  | nil => rfl
  | cons t rest ih => exact ih (e.setEnabled t.1 t.2).1

/-- What is loaded from two files and toggled differs from what they define in state only. -/
theorem descends_loadFiles_setAll (hooks : CodeEngines σ μ) (e : Engine σ) {t : FileTree}
    {g l shippedText userText : Text} (hg : t.readText g = .ok shippedText)
    (hl : t.readText l = .ok userText) (session : Session) (toggles : List (Text × Bool)) :
    Patch.Descends Patch.onFrameSection (Ini.Store.parse shippedText).toSource
      (Ini.Store.parse userText).toSource
      ((e.loadFiles hooks t { shipped := some g, user := some l } session).1.setAll
        toggles).patches := by
  rw [loadFiles_of_readText hooks e hg hl session, patches_setAll]
  exact (Patch.descends_merge Patch.onFrameSection _ _).toggleAll toggles

/-! ## Loading again -/

/-- **Loading what was persisted** succeeds, and gives the recalled patches. -/
theorem loadFiles_of_persist (hooks : CodeEngines σ μ) (after : Engine σ) (session : Session)
    {e : Engine σ} {t u : FileTree} {g l shippedText userText : Text}
    (hg : t.readText g = .ok shippedText) (hl : t.readText l = .ok userText)
    (hdiff : t.locate? g ≠ t.locate? l)
    (he : Patch.Descends Patch.onFrameSection (Ini.Store.parse shippedText).toSource
      (Ini.Store.parse userText).toSource e.patches)
    (hpersist : e.persist t l = (u, .ok ())) :
    let again := after.loadFiles hooks u { shipped := some g, user := some l } session
    again.2 = .ok () ∧ again.1.patches = Patch.recalled e.patches := by
  let stored := e.save.store (Ini.Store.parse userText) Patch.onFrameSection
  have hstored : stored.WellFormed := he.wellFormed_store (Ini.Store.wellFormed_parse shippedText)
    (Ini.Store.wellFormed_parse userText)
  rw [persist_of_readText e hl] at hpersist
  have huser : Ini.Store.load u l = .ok stored := Ini.Store.load_of_saveFile hstored hpersist
  have hshipped : u.readText g = .ok shippedText := by
    rw [Ini.Store.readText_of_saveFile hpersist hg, if_neg]
    exact Ini.Store.locate?_ne_of_saveFile hpersist hg hl hdiff
  rw [loadFiles, ConfigPaths.read_eq_ok_iff.2 ⟨Ini.Store.load_of_readText hshipped, huser⟩]
  exact ⟨rfl, he.merge_stored (Ini.Store.parse userText)⟩

/-! ## Two files -/

/-- The working directory with two configurations in it, at the paths `g` and `l`. -/
def twoFiles (shippedText userText : Text) : FileTree :=
  ((FileTree.empty []).put [['g']] (.file (Text.toStr shippedText).toUTF8)).put [['l']]
    (.file (Text.toStr userText).toUTF8)

section TwoFiles

variable (shippedText userText : Text)

theorem readText_twoFiles_shipped :
    (twoFiles shippedText userText).readText ['g'] = .ok shippedText :=
  FileTree.readText_eq_ok_iff.2 (FileTree.read_eq_ok_iff.2 ⟨rfl, [['g']], rfl, rfl⟩)

theorem readText_twoFiles_user : (twoFiles shippedText userText).readText ['l'] = .ok userText :=
  FileTree.readText_eq_ok_iff.2 (FileTree.read_eq_ok_iff.2 ⟨rfl, [['l']], rfl, rfl⟩)

theorem locate?_twoFiles :
    (twoFiles shippedText userText).locate? ['g'] ≠
      (twoFiles shippedText userText).locate? ['l'] := by
  have hg : (twoFiles shippedText userText).locate? ['g'] = some [['g']] := rfl
  have hl : (twoFiles shippedText userText).locate? ['l'] = some [['l']] := rfl
  rw [hg, hl]
  decide

/-- The user's file can be written. -/
theorem persist_twoFiles (e : Engine σ) :
    ∃ u, e.persist (twoFiles shippedText userText) ['l'] = (u, .ok ()) := by
  rw [persist_of_readText e (readText_twoFiles_user shippedText userText)]
  exact ⟨_, rfl⟩

end TwoFiles

/-- A new engine that has loaded the two files, where there are no code engines. -/
def fresh (t : FileTree) : Engine Unit :=
  ((new ()).loadFiles (CodeEngines.none (μ := Unit)) t
    { shipped := some ['g'], user := some ['l'] } {}).1

theorem patches_fresh (shippedText userText : Text) :
    (fresh (twoFiles shippedText userText)).patches =
      Patch.merge Patch.onFrameSection (Ini.Store.parse shippedText).toSource
        (Ini.Store.parse userText).toSource := by
  rw [fresh, loadFiles_of_readText _ _ (readText_twoFiles_shipped shippedText userText)
    (readText_twoFiles_user shippedText userText)]
  rfl

/-! ## What a reload keeps -/

/-- **What a reload keeps.** Patches that were loaded from two different files, toggled and
persisted are all there after a reload, with all fields the same, exactly if the last of them is not
a patch of the user's without entries; such a last patch is the one thing that is lost. -/
theorem patches_reload_eq_iff (hooks : CodeEngines σ μ) (before after : Engine σ)
    (session session' : Session) {t u : FileTree} {g l shippedText userText : Text}
    (hg : t.readText g = .ok shippedText) (hl : t.readText l = .ok userText)
    (hdiff : t.locate? g ≠ t.locate? l) (toggles : List (Text × Bool))
    (hpersist : ((before.loadFiles hooks t { shipped := some g, user := some l } session).1.setAll
      toggles).persist t l = (u, .ok ())) :
    let e := (before.loadFiles hooks t { shipped := some g, user := some l } session).1.setAll
      toggles
    let again := after.loadFiles hooks u { shipped := some g, user := some l } session'
    again.2 = .ok () ∧
      again.1.patches =
        (if Patch.endsHollow e.patches then e.patches.dropLast else e.patches) ∧
      (again.1.patches = e.patches ↔ Patch.endsHollow e.patches = false) := by
  intro e again
  have hagain : again.2 = .ok () ∧ again.1.patches = Patch.recalled e.patches :=
    loadFiles_of_persist hooks after session' hg hl hdiff
      (descends_loadFiles_setAll hooks before hg hl session toggles) hpersist
  refine ⟨hagain.1, hagain.2, ?_⟩
  rw [hagain.2]
  exact Patch.recalled_eq_self_iff

/-- A patch without entries is kept where a patch with entries follows it. -/
theorem reload_keeps_patch :
    let userText := "[OnFrame]\n$A\n$B\n0x0:byte:0x1".toList
    let t := twoFiles [] userText
    let e := (fresh t).setAll [(['A'], true)]
    t.readText ['g'] = .ok [] ∧ t.readText ['l'] = .ok userText ∧
      t.locate? ['g'] ≠ t.locate? ['l'] ∧
      ∃ u, e.persist t ['l'] = (u, .ok ()) ∧ (fresh u).patches = e.patches := by
  intro userText t e
  have hg : t.readText ['g'] = .ok [] := readText_twoFiles_shipped [] userText
  have hl : t.readText ['l'] = .ok userText := readText_twoFiles_user [] userText
  have hdiff : t.locate? ['g'] ≠ t.locate? ['l'] := locate?_twoFiles [] userText
  obtain ⟨u, hu⟩ := persist_twoFiles [] userText e
  have hends : Patch.endsHollow e.patches = false := by
    rw [patches_setAll, patches_fresh]
    decide
  have hagain := patches_reload_eq_iff (CodeEngines.none (μ := Unit)) (new ()) (new ()) {} {}
    hg hl hdiff [(['A'], true)] hu
  exact ⟨hg, hl, hdiff, u, hu, hagain.2.2.2 hends⟩

/-- **A patch that is lost.** The user's section opens `A` and `B` and gives no entry to either, so
`A` is loaded and `B` is not. Persisting writes `A` alone, and read again it is the last one. -/
theorem reload_forgets_patch :
    let userText := "[OnFrame]\n$A\n$B\n".toList
    let t := twoFiles [] userText
    let e := (fresh t).setAll [(['A'], true)]
    t.readText ['g'] = .ok [] ∧ t.readText ['l'] = .ok userText ∧
      t.locate? ['g'] ≠ t.locate? ['l'] ∧
      ∃ u, e.persist t ['l'] = (u, .ok ()) ∧
        e.patches = [{ name := ['A'], enabled := true, userDefined := true }] ∧
        (fresh u).patches = [] := by
  intro userText t e
  have hg : t.readText ['g'] = .ok [] := readText_twoFiles_shipped [] userText
  have hl : t.readText ['l'] = .ok userText := readText_twoFiles_user [] userText
  have hdiff : t.locate? ['g'] ≠ t.locate? ['l'] := locate?_twoFiles [] userText
  obtain ⟨u, hu⟩ := persist_twoFiles [] userText e
  have hloaded : e.patches = [{ name := ['A'], enabled := true, userDefined := true }] := by
    rw [patches_setAll, patches_fresh]
    decide
  have hdescends := descends_loadFiles_setAll (CodeEngines.none (μ := Unit)) (new ()) hg hl {}
    [(['A'], true)]
  have hagain : (fresh u).patches = Patch.recalled e.patches :=
    (loadFiles_of_persist CodeEngines.none (new ()) {} hg hl hdiff hdescends hu).2
  refine ⟨hg, hl, hdiff, u, hu, hloaded, ?_⟩
  rw [hagain, hloaded]
  rfl

end Engine

end FramePatch
