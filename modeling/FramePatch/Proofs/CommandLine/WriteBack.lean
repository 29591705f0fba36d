import FramePatch.Proofs.CommandLine.Outcome
import FramePatch.Proofs.Engine.Reachable
import FramePatch.Proofs.Ini.Owned

/-!
# Writing back what is owned

Whatever writes the user's configuration reads it first, edits the sections that it owns, and writes
all of it back. Patches own three sections, and the speed table owns one. As the store that is
written is well-formed, the file reads back as that very store, so no line that is put in can be
taken for part of another section. What the other sections say is as it was, and so is everything
that is read from them.

- `WroteBack`: the user's file holds the store that was loaded before, edited in owned sections
  only. Saving an edited store does that (`wroteBack_of_saveFile`).
- `PatchesWritten`: it was the sections of the patches that were edited, so the speed table of both
  configurations is the same (`patchesWritten_of_saveFile`).
- `RowWritten`: it was one row of the speed table, so the patches of both configurations are the
  same, and so are the cycle counts of all other addresses (`rowWritten_of_saveFile`).
- `written_back`: every way to write the user's configuration does one or the other.
-/

namespace FramePatch

universe u v w

/-! ## Merged configurations -/

/-- The speed table of two stores. -/
def SpeedTable.merged (shipped user : Ini.Store) : SpeedTable :=
  ofSources speedhacksSection [shipped.toSource, user.toSource]

/-- What the shipped configuration says before and after the user's one is changed. It says the
same, or it says what the user's one does, if one file is both. -/
inductive ShippedBeside (before after : Ini.Store) : Ini.Store → Ini.Store → Prop where
  | apart (shipped : Ini.Store) : ShippedBeside before after shipped shipped
  | shared : ShippedBeside before after before after

/-- What the change of the user's configuration leaves alone is the same in the shipped one. -/
theorem ShippedBeside.eq {before after shipped shippedAfter : Ini.Store}
    (h : ShippedBeside before after shipped shippedAfter) {α : Type} {f : Ini.Store → α}
    (hf : f after = f before) : f shippedAfter = f shipped := by
  cases h with
  | apart => rfl
  | shared => exact hf

namespace Patch

/-- The sections that patches are stored in. -/
def storedSections (name : Text) : List Text := [enabledSection name, disabledSection name, name]

/-- Storing patches edits these sections only. -/
theorem SectionLines.editedOnly_store (l : SectionLines) (store : Ini.Store) (name : Text) :
    store.EditedOnly (storedSections name) (l.store store name) := by
  have hed := fold_enabledSection_ne_disabledSection name
  have he := fold_enabledSection_ne name
  have hd := fold_disabledSection_ne name
  let on := store.setLines (enabledSection name) l.enabled
  let off := on.setLines (disabledSection name) l.disabled
  have hon : store.EditedOnly [enabledSection name] on := Ini.Store.editedOnly_edit store _ _
  have hoff : on.EditedOnly [disabledSection name] off := Ini.Store.editedOnly_edit on _ _
  have hall : off.EditedOnly [name] (off.setLines name l.definitions) :=
    Ini.Store.editedOnly_edit off _ _
  have hcompanions := hon.trans hoff (by simpa using hed.symm)
  exact hcompanions.trans hall (by simpa using ⟨he.symm, hd.symm⟩)

/-- Patches are merged from these sections only. -/
theorem merge_congr {name : Text} {shipped shipped' user user' : Source}
    (hshipped : ∀ asked ∈ storedSections name, shipped'.lines asked = shipped.lines asked)
    (huser : ∀ asked ∈ storedSections name, user'.lines asked = user.lines asked) :
    merge name shipped' user' = merge name shipped user := by
  simp only [storedSections, List.forall_mem_cons, List.not_mem_nil] at hshipped huser
  obtain ⟨hse, hsd, hs, -⟩ := hshipped
  obtain ⟨hue, hud, hu, -⟩ := huser
  simp only [merge, overrideBy, hse, hsd, hs, hue, hud, hu]

end Patch

/-! ## Files that are written back -/

/-- The user's file at a path held the store `before`, and now holds the store `after`, in which
nothing but owned sections was edited. It is the one file that was written: a file elsewhere holds
the text that it held, and any other path to the user's file has come to say the same as the user's
path. -/
structure WroteBack (owned : List Text) (t : FileTree) (path : Text) (u : FileTree)
    (before after : Ini.Store) : Prop where
  loaded : Ini.Store.load t path = .ok before
  holds : ∃ text, u.readText path = .ok text ∧ Ini.Store.parse text = after
  wrote : ∃ loc, u.locate? path = some loc ∧ FileTree.Wrote t loc after.toBytes u
  edited : before.EditedOnly owned after
  elsewhere : ∀ other text, t.readText other = .ok text → u.locate? other ≠ u.locate? path →
    u.readText other = .ok text
  shared : ∀ other text, t.readText other = .ok text → t.locate? other = t.locate? path →
    Ini.Store.parse text = before ∧
      ∃ textAfter, u.readText other = .ok textAfter ∧ Ini.Store.parse textAfter = after

/-- **Saving an edited store** writes it back, if it is well-formed. -/
theorem wroteBack_of_saveFile {owned : List Text} {t u : FileTree} {path : Text}
    {before after : Ini.Store} (hload : Ini.Store.load t path = .ok before)
    (hedited : before.EditedOnly owned after) (hafter : after.WellFormed)
    (hsave : after.saveFile t path = (u, .ok ())) : WroteBack owned t path u before after := by
  have hprinted : u.readText path = .ok after.print := Ini.Store.readText_self_of_saveFile hsave
  obtain ⟨-, hwrote⟩ := FileTree.wrote_of_save (Ini.Store.saveFile_eq_ok_iff_save.1 hsave)
  refine ⟨hload, ⟨_, hprinted, Ini.Store.parse_print hafter⟩, hwrote, hedited, ?_, ?_⟩
  · intro other text hread hother
    rw [Ini.Store.readText_of_saveFile hsave hread, if_neg hother]
  · intro other text hread hsame
    obtain ⟨hfile, -⟩ := FileTree.read_eq_ok_iff.1 (FileTree.readText_eq_ok_iff.1 hprinted)
    have hpath : t.readText path = .ok text := FileTree.readText_congr hread hsame.symm hfile
    have hparsed := Ini.Store.load_of_readText hpath
    refine ⟨Except.ok.inj (hparsed.symm.trans hload), after.print, ?_, Ini.Store.parse_print hafter⟩
    obtain ⟨-, loc, hloc, -⟩ := FileTree.read_eq_ok_iff.1 (FileTree.readText_eq_ok_iff.1 hpath)
    rw [Ini.Store.readText_of_saveFile hsave hread, Ini.Store.locate?_of_saveFile hsave hloc,
      Ini.Store.locate?_of_saveFile hsave (hsame.trans hloc), if_pos rfl]

/-- Patches were written to the user's file, which leaves the speed table as it was. -/
structure PatchesWritten (t : FileTree) (path : Text) (u : FileTree) (before after : Ini.Store) :
    Prop extends WroteBack (Patch.storedSections Patch.onFrameSection) t path u before after where
  table : ∀ shipped shippedAfter, ShippedBeside before after shipped shippedAfter →
    SpeedTable.merged shippedAfter after = SpeedTable.merged shipped before

/-- One row of the speed table was written to the user's file, which leaves the patches and the
cycle counts of all other addresses as they were. -/
structure RowWritten (address cycles : UInt32) (t : FileTree) (path : Text) (u : FileTree)
    (before after : Ini.Store) :
    Prop extends WroteBack [SpeedTable.speedhacksSection] t path u before after where
  row : Ini.OneRowSet (Literal.hex address) (Literal.decimal cycles)
    (before.rawLines SpeedTable.speedhacksSection) (after.rawLines SpeedTable.speedhacksSection)
  patches : ∀ shipped shippedAfter, ShippedBeside before after shipped shippedAfter →
    Patch.frames shippedAfter after = Patch.frames shipped before
  others : ∀ shipped shippedAfter, ShippedBeside before after shipped shippedAfter →
    ∀ other, other ≠ address →
      (SpeedTable.merged shippedAfter after).cycles other =
        (SpeedTable.merged shipped before).cycles other

section SaveFile

variable {t u : FileTree} {path : Text} {before : Ini.Store}
  (hload : Ini.Store.load t path = .ok before)

include hload

/-- **Storing patches** in the user's file leaves the speed table as it was. -/
theorem patchesWritten_of_saveFile {l : Patch.SectionLines}
    (hlines : ∀ line, l.Has line → Ini.PlainLine line)
    (hsave : (l.store before Patch.onFrameSection).saveFile t path = (u, .ok ())) :
    PatchesWritten t path u before (l.store before Patch.onFrameSection) := by
  have hedited := l.editedOnly_store before Patch.onFrameSection
  have hafter := Patch.SectionLines.wellFormed_store (Ini.Store.wellFormed_of_load hload) hlines
  refine ⟨wroteBack_of_saveFile hload hedited hafter hsave, fun shipped shippedAfter hbeside => ?_⟩
  have hrows : (l.store before Patch.onFrameSection).toSource.rows SpeedTable.speedhacksSection =
      before.toSource.rows SpeedTable.speedhacksSection := hedited.rows_other (by decide)
  refine SpeedTable.ofSources_congr ?_ hrows
  exact hbeside.eq (f := fun store => store.toSource.rows SpeedTable.speedhacksSection) hrows

/-- **Setting a row** in the user's file leaves patches and other rows as they were. -/
theorem rowWritten_of_saveFile (a c : UInt32)
    (hsave : (SpeedTable.setCycles before a c).saveFile t path = (u, .ok ())) :
    RowWritten a c t path u before (SpeedTable.setCycles before a c) := by
  have hedited : before.EditedOnly [SpeedTable.speedhacksSection]
      (SpeedTable.setCycles before a c) := Ini.Store.editedOnly_edit before _ _
  have hafter := SpeedTable.wellFormed_setCycles (Ini.Store.wellFormed_of_load hload) a c
  have hrow := SpeedTable.oneRowSet_setCycles before a c
  refine ⟨wroteBack_of_saveFile hload hedited hafter hsave, hrow, ?_, ?_⟩
  · intro shipped shippedAfter hbeside
    have hlines : ∀ asked ∈ Patch.storedSections Patch.onFrameSection,
        (SpeedTable.setCycles before a c).toSource.lines asked = before.toSource.lines asked := by
      intro asked hasked
      refine hedited.lines_other ?_
      revert asked
      decide
    refine Patch.merge_congr (fun asked hasked => ?_) hlines
    exact hbeside.eq (f := fun store => store.toSource.lines asked) (hlines asked hasked)
  · intro shipped shippedAfter hbeside other hother
    let count (store : Ini.Store) : Option UInt32 :=
      SpeedTable.lastCount? other (store.toSource.rows SpeedTable.speedhacksSection)
    have hcount : count (SpeedTable.setCycles before a c) = count before :=
      SpeedTable.lastCount?_of_oneRowSet hother.symm hrow
    exact SpeedTable.cycles_congr (hbeside.eq (f := count) hcount) hcount

end SaveFile

/-! ## Ways to write -/

/-- **Persisting** the patches of an engine writes them to the user's file. -/
theorem patchesWritten_of_persist {σ : Type u} {e : Engine σ}
    (hlines : ∀ line, e.save.Has line → Ini.PlainLine line) {t u : FileTree} {path : Text}
    (hpersist : e.persist t path = (u, .ok ())) :
    ∃ before, PatchesWritten t path u before (e.save.store before Patch.onFrameSection) := by
  rw [Engine.persist] at hpersist
  split at hpersist
  · next before hload =>
    exact ⟨before, patchesWritten_of_saveFile hload hlines hpersist⟩
  · cases hpersist

namespace CommandLine

section Runs

variable {args : List Text} {environment : Text → Option Text} {i : Invocation}
  (hparse : Invocation.parse args environment = .ok i) {t u : FileTree} {r : Result}
  (hrun : run args environment t = (u, r)) (hexit : r.exitCode = 0)

include hparse hrun hexit

/-- **Toggling** patches by a run of the program writes them to the user's file. -/
theorem patchesWritten_of_toggle {name : Text} {enabled : Bool}
    (hcommand : i.command = .toggle name enabled) :
    ∃ path shipped before, i.paths.user = some path ∧ i.paths.read t = .ok (shipped, before) ∧
      PatchesWritten t path u before (Patch.toggledStore shipped before [(name, enabled)]) := by
  obtain ⟨output, hdone⟩ := ok_of_exitCode hparse hrun hexit
  obtain ⟨path, store, hcomes, hsave⟩ := Invocation.saved_of_run (by rw [hcommand]; rfl) hdone
  cases hcomes with
  | setCycles sets =>
    rw [hcommand] at sets
    cases sets
  | @toggle _ _ _ shipped user toggles given reading =>
    rw [hcommand] at toggles
    obtain ⟨rfl, rfl⟩ := Command.toggle.inj toggles
    obtain ⟨hshipped, huser⟩ := ConfigPaths.wellFormed_of_read reading
    have hload := ConfigPaths.load_of_read reading given
    have hdescends := (Patch.descends_merge Patch.onFrameSection shipped.toSource
      user.toSource).toggleAll [(name, enabled)]
    exact ⟨path, shipped, user, given, reading, patchesWritten_of_saveFile hload
      (fun _ hline => hdescends.plainLine_of_save_has hshipped huser hline) hsave⟩

/-- **Setting a count** by a run of the program writes one row to the user's file. -/
theorem rowWritten_of_setCycles {address cycles : Text}
    (hcommand : i.command = .setCycles address cycles) :
    ∃ path a c shipped before, i.paths.user = some path ∧ Literal.read? address = some a ∧
      Literal.read? cycles = some c ∧ i.paths.read t = .ok (shipped, before) ∧
      RowWritten a c t path u before (SpeedTable.setCycles before a c) := by
  obtain ⟨output, hdone⟩ := ok_of_exitCode hparse hrun hexit
  obtain ⟨path, store, hcomes, hsave⟩ := Invocation.saved_of_run (by rw [hcommand]; rfl) hdone
  cases hcomes with
  | toggle toggles =>
    rw [hcommand] at toggles
    cases toggles
  | @setCycles _ _ _ a c shipped user sets given reading addressRead cyclesRead =>
    rw [hcommand] at sets
    obtain ⟨rfl, rfl⟩ := Command.setCycles.inj sets
    exact ⟨path, a, c, shipped, user, given, addressRead, cyclesRead, reading,
      rowWritten_of_saveFile (ConfigPaths.load_of_read reading given) a c hsave⟩

end Runs

/-- **What is written back** is what is owned. Let the user's configuration be written, on whatever
files and in one of three ways:

* a run of the program that toggles patches ends with exit code 0;
* an engine persists its patches and succeeds, after any calls to it that loaded files or texts;
* a run of the program that sets a cycle count ends with exit code 0.

Then the user's file holds the store that was loaded from it, edited in the sections of the patches
only, or in one row of the speed table only. The first leaves the merged speed table as it was, and
the second the merged patches and the merged cycle counts of all other addresses. -/
theorem written_back {σ : Type u} {φ : Type w} [FileSystem φ] {μ : Type v} [GuestMemory μ]
    (t u : FileTree) :
    (∀ args environment i name enabled r, Invocation.parse args environment = .ok i →
      i.command = .toggle name enabled → run args environment t = (u, r) → r.exitCode = 0 →
      ∃ path shipped before, i.paths.user = some path ∧ i.paths.read t = .ok (shipped, before) ∧
        PatchesWritten t path u before (Patch.toggledStore shipped before [(name, enabled)])) ∧
    (∀ (hooks : CodeEngines σ μ) codes (calls : List (Call φ μ)) path,
      (∀ call ∈ calls, call.FromTexts) →
      let e := (Engine.new codes).run hooks calls
      e.persist t path = (u, .ok ()) →
      ∃ before, PatchesWritten t path u before (e.save.store before Patch.onFrameSection)) ∧
    ∀ args environment i address cycles r, Invocation.parse args environment = .ok i →
      i.command = .setCycles address cycles → run args environment t = (u, r) → r.exitCode = 0 →
      ∃ path a c before, i.paths.user = some path ∧ Literal.read? address = some a ∧
        Literal.read? cycles = some c ∧
        RowWritten a c t path u before (SpeedTable.setCycles before a c) := by
  refine ⟨?_, ?_, ?_⟩
  · intro args environment i name enabled r hparse hcommand hrun hexit
    exact patchesWritten_of_toggle hparse hrun hexit hcommand
  · intro hooks codes calls path hcalls e hpersist
    refine patchesWritten_of_persist (fun line hline => ?_) hpersist
    exact Engine.plainLine_of_run hooks codes hcalls hline
  · intro args environment i address cycles r hparse hcommand hrun hexit
    obtain ⟨path, a, c, shipped, before, hpath, ha, hc, -, hwritten⟩ :=
      rowWritten_of_setCycles hparse hrun hexit hcommand
    exact ⟨path, a, c, before, hpath, ha, hc, hwritten⟩

/-- All three ways on two files, where the user's one has a comment, sections in other cases than
the usual ones, and two rows about one address. -/
theorem written_back_mixed :
    let shippedText := "[OnFrame]\n$A\n0x80001000:byte:0x1\n[Speedhacks]\n0x80003004 = 7".toList
    let userText := ("[Core]\nx = 1 # kept\n[SPEEDHACKS]\n0X80003000 = 5\n2147495936 = 9\n" ++
      "[onframe]\n$B\n0x0:byte:0x1").toList
    let t := Engine.twoFiles shippedText userText
    let shipped := Ini.Store.parse shippedText
    let user := Ini.Store.parse userText
    let calls : List (Call FileTree ByteMemory) :=
      [.load shipped.toSource user.toSource {}, .setEnabled ['A'] true]
    let e := (Engine.new ()).run .none calls
    (∃ u r, run (toggleLine twoPaths ['A'] true) (fun _ => none) t = (u, r) ∧ r.exitCode = 0 ∧
      PatchesWritten t ['l'] u user (Patch.toggledStore shipped user [(['A'], true)])) ∧
    (∃ u, (∀ call ∈ calls, call.FromTexts) ∧ e.persist t ['l'] = (u, .ok ()) ∧
      PatchesWritten t ['l'] u user (e.save.store user Patch.onFrameSection)) ∧
    ∃ u r, run (setLine twoPaths "0x80003000".toList "40".toList) (fun _ => none) t = (u, r) ∧
      r.exitCode = 0 ∧
      RowWritten 0x80003000 40 t ['l'] u user (SpeedTable.setCycles user 0x80003000 40) := by
  intro shippedText userText t shipped user calls e
  have hg : t.readText ['g'] = .ok shippedText :=
    Engine.readText_twoFiles_shipped shippedText userText
  have hl : t.readText ['l'] = .ok userText := Engine.readText_twoFiles_user shippedText userText
  have holding : Holding t ['g'] ['l'] [['l']] shipped user :=
    ⟨⟨_, hg, rfl⟩, ⟨_, hl, rfl⟩, rfl, Engine.locate?_twoFiles shippedText userText⟩
  have huser {store : Ini.Store} (hload : Ini.Store.load t ['l'] = .ok store) : store = user :=
    Except.ok.inj (hload.symm.trans (Ini.Store.load_of_readText hl))
  refine ⟨?_, ?_, ?_⟩
  · have hname : ['A'] ∈ (Patch.frames shipped user).map (·.name) := by decide
    have hrun := holding.run_toggleLine givesPaths_twoPaths hname true
    have hparse := parse_toggleLine givesPaths_twoPaths ['A'] true
    obtain ⟨path, shipped', before, hpath, hread, hwritten⟩ := (written_back (σ := Unit)
      (φ := FileTree) (μ := ByteMemory) t _).1 _ _ _ _ _ _ hparse rfl hrun rfl
    obtain rfl := Option.some.inj hpath
    obtain ⟨rfl, rfl⟩ := Prod.mk.inj (Except.ok.inj (holding.read.symm.trans hread))
    exact ⟨_, _, hrun, rfl, hwritten⟩
  · have hcalls : ∀ call ∈ calls, call.FromTexts :=
      List.forall_mem_cons.2 ⟨⟨⟨_, rfl⟩, _, rfl⟩, List.forall_mem_singleton.2 trivial⟩
    obtain ⟨u, hpersist⟩ := Engine.persist_twoFiles shippedText userText e
    obtain ⟨before, hwritten⟩ := (written_back t u).2.1 .none () calls ['l'] hcalls hpersist
    obtain rfl := huser hwritten.loaded
    exact ⟨u, hcalls, hpersist, hwritten⟩
  · have ha : Literal.read? "0x80003000".toList = some 0x80003000 := by decide
    have hc : Literal.read? "40".toList = some 40 := by decide
    have hrun := (run_setLine givesPaths_twoPaths ha hc hg hl rfl).2
    have hparse := parse_setLine givesPaths_twoPaths
      (looksLikeFlag_of_read? ha) (looksLikeFlag_of_read? hc)
    obtain ⟨path, a, c, before, hpath, ha', hc', hwritten⟩ := (written_back (σ := Unit)
      (φ := FileTree) (μ := ByteMemory) t _).2.2 _ _ _ _ _ _ hparse rfl hrun rfl
    obtain rfl := Option.some.inj hpath
    obtain rfl := Option.some.inj (ha.symm.trans ha')
    obtain rfl := Option.some.inj (hc.symm.trans hc')
    obtain rfl := huser hwritten.loaded
    exact ⟨_, _, hrun, rfl, hwritten⟩

end CommandLine

end FramePatch
