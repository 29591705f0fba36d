import FramePatch.Proofs.CommandLine.Lines
import FramePatch.Proofs.CommandLine.Run
import FramePatch.Proofs.Engine.Persistence

/-!
# Toggles from run to run

A sequence of toggles can be done by one engine, which loads both configurations, toggles and
persists once; or by one run of the program for each toggle, where every run reads what the run
before it wrote. Both come to the same, for two reasons: a store that was saved is read back as it
was, with all its patches, and a save replaces whatever the save before it put into the store.

- `toggledStore`: the user's store after toggles. Toggling it again is toggling the first store with
  all toggles (`toggledStore_append`).
- `Holding`: the files hold two stores. Every run keeps this, with the user's store toggled
  (`Holding.put`, `Holding.run_toggleLine`).
- `Holding.runAll_toggleLines`: so do all runs, by induction on the toggles.
- `runAll_eq_persist`: the runs leave the tree as one engine does, and all end with exit code 0.
- `enable_dashed_name`: a name that looks like a flag is refused without two dashes before it.
-/

namespace FramePatch

universe u v w

/-! ## Toggled stores -/

namespace Patch

/-- Toggles decide nothing about the last patch but its state. -/
theorem endsHollow_toggleAll (toggles : List (Text × Bool)) (ps : List Patch) :
    endsHollow (toggleAll toggles ps) = endsHollow ps := by
  rw [toggleAll_eq_map, endsHollow, List.getLast?_map, Option.any_map]
  rfl

/-- A last patch of the user's with entries is not hollow. -/
theorem endsHollow_of_entries {ps : List Patch}
    (h : ∀ p, (ps.filter (·.userDefined)).getLast? = some p → p.entries ≠ []) :
    endsHollow ps = false := by
  rw [endsHollow, Option.any_eq_false]
  intro p hp
  obtain ⟨front, rfl⟩ := List.getLast?_eq_some_iff.1 hp
  cases huser : p.userDefined with
  | false => simp
  | true =>
    have hlast : ((front ++ [p]).filter (·.userDefined)).getLast? = some p := by
      simp [List.filter_append, huser]
    simpa using h p hlast

theorem map_name_toggleAll (toggles : List (Text × Bool)) (ps : List Patch) :
    (toggleAll toggles ps).map (·.name) = ps.map (·.name) := by
  rw [toggleAll_eq_map, List.map_map]
  rfl

/-- The patches of every frame in two stores. -/
def frames (shipped user : Ini.Store) : List Patch :=
  merge onFrameSection shipped.toSource user.toSource

/-- The user's store once the patches of both stores have been toggled and saved. -/
def toggledStore (shipped user : Ini.Store) (toggles : List (Text × Bool)) : Ini.Store :=
  (save (toggleAll toggles (frames shipped user))).store user onFrameSection

section ToggledStore

variable {shipped user : Ini.Store}

theorem wellFormed_toggledStore (hshipped : shipped.WellFormed) (huser : user.WellFormed)
    (toggles : List (Text × Bool)) : (toggledStore shipped user toggles).WellFormed :=
  ((descends_merge onFrameSection _ _).toggleAll toggles).wellFormed_store hshipped huser

/-- All patches are there again, if the last one of the user's has entries. -/
theorem frames_toggledStore (hends : endsHollow (frames shipped user) = false)
    (toggles : List (Text × Bool)) :
    frames shipped (toggledStore shipped user toggles) =
      toggleAll toggles (frames shipped user) := by
  have hdescends := (descends_merge onFrameSection shipped.toSource user.toSource).toggleAll toggles
  refine Eq.trans (hdescends.merge_stored user) (recalled_eq_self_iff.2 ?_)
  rw [endsHollow_toggleAll]
  exact hends

/-- Toggling what was toggled and saved is toggling once. -/
theorem toggledStore_append (hends : endsHollow (frames shipped user) = false)
    (ts us : List (Text × Bool)) :
    toggledStore shipped (toggledStore shipped user ts) us =
      toggledStore shipped user (ts ++ us) := by
  rw [toggledStore, frames_toggledStore hends, ← toggleAll_append, toggledStore,
    SectionLines.store_store]
  rfl

end ToggledStore

end Patch

namespace CommandLine

/-! ## Runs on files -/

/-- Two files at different places hold the texts of two stores. -/
structure Holding (t : FileTree) (g l : Text) (loc : Location) (shipped user : Ini.Store) :
    Prop where
  shippedText : ∃ text, t.readText g = .ok text ∧ Ini.Store.parse text = shipped
  userText : ∃ text, t.readText l = .ok text ∧ Ini.Store.parse text = user
  place : t.locate? l = some loc
  apart : t.locate? g ≠ t.locate? l

namespace Holding

variable {t : FileTree} {g l : Text} {loc : Location} {shipped user : Ini.Store}

theorem read (h : Holding t g l loc shipped user) :
    ConfigPaths.read { shipped := some g, user := some l } t = .ok (shipped, user) := by
  obtain ⟨shippedText, hg, rfl⟩ := h.shippedText
  obtain ⟨userText, hl, rfl⟩ := h.userText
  exact ConfigPaths.read_eq_ok_iff.2 ⟨Ini.Store.load_of_readText hg, Ini.Store.load_of_readText hl⟩

theorem saveFile (h : Holding t g l loc shipped user) (store : Ini.Store) :
    store.saveFile t l = (t.put loc (.file store.toBytes), .ok ()) := by
  obtain ⟨userText, hl, -⟩ := h.userText
  exact store.saveFile_of_readText hl h.place

theorem wellFormed_toggledStore (h : Holding t g l loc shipped user)
    (toggles : List (Text × Bool)) : (Patch.toggledStore shipped user toggles).WellFormed := by
  obtain ⟨shippedText, -, rfl⟩ := h.shippedText
  obtain ⟨userText, -, rfl⟩ := h.userText
  exact Patch.wellFormed_toggledStore (Ini.Store.wellFormed_parse shippedText)
    (Ini.Store.wellFormed_parse userText) toggles

/-- Once a well-formed store is saved in place of the user's, the files hold that one. -/
theorem put (h : Holding t g l loc shipped user) {store : Ini.Store} (hstore : store.WellFormed) :
    Holding (t.put loc (.file store.toBytes)) g l loc shipped store := by
  obtain ⟨shippedText, hg, hshipped⟩ := h.shippedText
  obtain ⟨userText, hl, -⟩ := h.userText
  have hsave := h.saveFile store
  have hapart := Ini.Store.locate?_ne_of_saveFile hsave hg hl h.apart
  constructor
  · refine ⟨shippedText, ?_, hshipped⟩
    rw [Ini.Store.readText_of_saveFile hsave hg, if_neg hapart]
  · refine ⟨store.print, ?_, Ini.Store.parse_print hstore⟩
    rw [Ini.Store.readText_of_saveFile hsave hl, if_pos rfl]
  · exact Ini.Store.locate?_of_saveFile hsave h.place
  · exact hapart

end Holding

/-! ## One run for each toggle -/

/-- What is printed once the patches of a name have been toggled. -/
def toggleOutput (name : Text) (enabled : Bool) : Text :=
  let word := if enabled then Text.ofString "enabled " else Text.ofString "disabled "
  Command.unlines [word ++ name]

/-- Toggling patches of a name that is there saves them in the user's store. -/
theorem Command.plan_toggle {paths : ConfigPaths} {l : Text} (hpath : paths.user = some l)
    {shipped user : Ini.Store} {name : Text}
    (hname : name ∈ (Patch.frames shipped user).map (·.name)) (enabled : Bool) :
    (toggle name enabled).plan paths shipped user =
      .save l ((Patch.save (Patch.toggleAll [(name, enabled)] (Patch.frames shipped user))).store ·
        Patch.onFrameSection) (toggleOutput name enabled) := by
  have hfound : (Patch.frames shipped user).any (·.name == name) = true := by
    obtain ⟨p, hp, hpname⟩ := List.mem_map.1 hname
    exact List.any_eq_true.2 ⟨p, hp, by simpa using hpname⟩
  have htoggled : ((Engine.new ()).load (CodeEngines.none (μ := Unit)) shipped.toSource
      user.toSource {}).setEnabled name enabled =
      ({ (Engine.new ()).load (CodeEngines.none (μ := Unit)) shipped.toSource user.toSource {} with
        patches := Patch.setEnabled name enabled (Patch.frames shipped user) }, true) :=
    congrArg (Prod.mk _) hfound
  simp only [plan, planToggle, hpath, htoggled]
  rfl

/-- Runs the program once for each of some lines, one after another. -/
def runAll {φ : Type w} [FileSystem φ] (environment : Text → Option Text) :
    List (List Text) → φ → φ × List Result
  | [], s => (s, [])
  | args :: rest, s =>
    let (t, r) := run args environment s
    let (u, rs) := runAll environment rest t
    (u, r :: rs)

/-- The lines that do some toggles, one line for each. -/
def toggleLines (flags : List Text) (toggles : List (Text × Bool)) : List (List Text) :=
  toggles.map fun tg => toggleLine flags tg.1 tg.2

section Runs

variable {environment : Text → Option Text} {flags : List Text} {g l : Text}
  (hflags : GivesPaths environment flags { shipped := some g, user := some l })
  {t : FileTree} {loc : Location} {shipped user : Ini.Store}

include hflags

/-- **One run** puts the toggled store in place of the user's. -/
theorem Holding.run_toggleLine (h : Holding t g l loc shipped user) {name : Text}
    (hname : name ∈ (Patch.frames shipped user).map (·.name)) (enabled : Bool) :
    run (toggleLine flags name enabled) environment t =
      (t.put loc (.file (Patch.toggledStore shipped user [(name, enabled)]).toBytes),
        .done (toggleOutput name enabled)) :=
  run_of_save (parse_toggleLine hflags name enabled) h.read
    (Command.plan_toggle rfl hname enabled) (h.saveFile _)

/-- **All runs** together put the store with all toggles in place of the user's. -/
theorem Holding.runAll_toggleLines (h : Holding t g l loc shipped user)
    (hends : Patch.endsHollow (Patch.frames shipped user) = false) (tg : Text × Bool)
    (rest : List (Text × Bool))
    (hnames : ∀ tog ∈ tg :: rest, tog.1 ∈ (Patch.frames shipped user).map (·.name)) :
    let runs := runAll environment (toggleLines flags (tg :: rest)) t
    runs.1 = t.put loc (.file (Patch.toggledStore shipped user (tg :: rest)).toBytes) ∧
      ∀ r ∈ runs.2, r.exitCode = 0 := by
  -- each run is one from the store that the run before it saved
  induction rest generalizing t user tg with
  | nil =>
    have hrun := h.run_toggleLine hflags (hnames tg List.mem_cons_self) tg.2
    simp [toggleLines, runAll, hrun, Result.exitCode]
  | cons next rest ih =>
    have hrun := h.run_toggleLine hflags (hnames tg List.mem_cons_self) tg.2
    have hafter := h.put (h.wellFormed_toggledStore [tg])
    have hframes := Patch.frames_toggledStore hends [tg]
    have hendsAfter : Patch.endsHollow (Patch.frames shipped
        (Patch.toggledStore shipped user [tg])) = false := by
      rw [hframes, Patch.endsHollow_toggleAll]
      exact hends
    have hnamesAfter : ∀ tog ∈ next :: rest, tog.1 ∈ (Patch.frames shipped
        (Patch.toggledStore shipped user [tg])).map (·.name) := by
      intro tog htog
      rw [hframes, Patch.map_name_toggleAll]
      exact hnames tog (List.mem_cons_of_mem tg htog)
    obtain ⟨htree, hexits⟩ := ih hafter hendsAfter next hnamesAfter
    rw [FileTree.put_put, Patch.toggledStore_append hends] at htree
    simp only [toggleLines, List.map_cons, runAll, hrun] at htree hexits ⊢
    exact ⟨htree, List.forall_mem_cons.2 ⟨rfl, hexits⟩⟩

end Runs

/-- **Runs and one engine** come to the same. Let two files at different places hold texts, let the
last patch of the user's have entries, if there is one, and let every toggle name a patch that is
there. Then one run for each toggle ends with exit code 0, and together the runs leave the tree that
one engine leaves, which loads both files, does all toggles and persists. -/
theorem runAll_eq_persist {σ : Type u} {μ : Type v} (hooks : CodeEngines σ μ) (e : Engine σ)
    (session : Session) {environment : Text → Option Text} {flags : List Text} {g l : Text}
    (hflags : GivesPaths environment flags { shipped := some g, user := some l })
    {t : FileTree} {shippedText userText : Text} (hg : t.readText g = .ok shippedText)
    (hl : t.readText l = .ok userText) (hdiff : t.locate? g ≠ t.locate? l)
    {ps : List Patch}
    (hps : Patch.frames (Ini.Store.parse shippedText) (Ini.Store.parse userText) = ps)
    (hentries : ∀ p, (ps.filter (·.userDefined)).getLast? = some p → p.entries ≠ [])
    {toggles : List (Text × Bool)} (hne : toggles ≠ [])
    (hnames : ∀ tg ∈ toggles, tg.1 ∈ ps.map (·.name)) :
    let runs := runAll environment (toggleLines flags toggles) t
    let loaded := e.loadFiles hooks t { shipped := some g, user := some l } session
    (∀ r ∈ runs.2, r.exitCode = 0) ∧ loaded.2 = .ok () ∧
      (loaded.1.setAll toggles).persist t l = (runs.1, .ok ()) ∧
      ∃ text, runs.1.readText l = .ok text := by
  intro runs loaded
  subst hps
  obtain ⟨-, loc, hloc, -⟩ := FileTree.read_eq_ok_iff.1 (FileTree.readText_eq_ok_iff.1 hl)
  have h : Holding t g l loc (Ini.Store.parse shippedText) (Ini.Store.parse userText) :=
    ⟨⟨shippedText, hg, rfl⟩, ⟨userText, hl, rfl⟩, hloc, hdiff⟩
  have hloaded : loaded = _ := Engine.loadFiles_of_readText hooks e hg hl session
  obtain ⟨tg, rest, rfl⟩ := List.exists_cons_of_ne_nil hne
  obtain ⟨htree, hexits⟩ :=
    h.runAll_toggleLines hflags (Patch.endsHollow_of_entries hentries) tg rest hnames
  have hsession : (loaded.1.setAll (tg :: rest)).persist t l = (runs.1, .ok ()) := by
    rw [Engine.persist_of_readText _ hl, Engine.save, Engine.patches_setAll, hloaded,
      show runs.1 = _ from htree]
    exact h.saveFile _
  obtain ⟨text, htext, -⟩ := (h.put (h.wellFormed_toggledStore (tg :: rest))).userText
  refine ⟨hexits, congrArg Prod.snd hloaded, hsession, text, ?_⟩
  rw [show runs.1 = _ from htree]
  exact htext

/-- Toggles that cancel out, and a name that looks like a flag. -/
theorem runAll_eq_persist_dashed :
    let shippedText := "[OnFrame]\n$A\n0x80001000:byte:0x1\n[OnFrame_Enabled]\n$A".toList
    let userText := "[onframe]\n$A\n$-B\n0x80002000:word:0x2".toList
    let t := Engine.twoFiles shippedText userText
    let ps : List Patch :=
      [{ name := ['A'], entries := [⟨0x80001000, .byte, 1, false, 0⟩], enabled := true,
         defaultEnabled := true },
       { name := ['A'], userDefined := true },
       { name := ['-', 'B'], entries := [⟨0x80002000, .word, 2, false, 0⟩], userDefined := true }]
    let toggles := [(['A'], false), (['-', 'B'], true), (['A'], true)]
    let flags := [Flag.shippedPath.name ++ ['=', 'g'], Flag.userPath.name ++ ['=', 'l']]
    Patch.frames (Ini.Store.parse shippedText) (Ini.Store.parse userText) = ps ∧
      (∀ p, (ps.filter (·.userDefined)).getLast? = some p → p.entries ≠ []) ∧
      (∀ tg ∈ toggles, tg.1 ∈ ps.map (·.name)) ∧
      let runs := runAll (fun _ => none) (toggleLines flags toggles) t
      let loaded := (Engine.new ()).loadFiles (CodeEngines.none (μ := Unit)) t
        { shipped := some ['g'], user := some ['l'] } {}
      (∀ r ∈ runs.2, r.exitCode = 0) ∧ loaded.2 = .ok () ∧
        (loaded.1.setAll toggles).persist t ['l'] = (runs.1, .ok ()) ∧
        ∃ text, runs.1.readText ['l'] = .ok text := by
  intro shippedText userText t ps toggles flags
  have hps : Patch.frames (Ini.Store.parse shippedText) (Ini.Store.parse userText) = ps := by
    decide
  have hentries : ∀ p, (ps.filter (·.userDefined)).getLast? = some p → p.entries ≠ [] := by
    intro p hp
    obtain rfl := Option.some.inj hp
    exact List.cons_ne_nil _ _
  have hnames : ∀ tg ∈ toggles, tg.1 ∈ ps.map (·.name) := by decide
  have hflags : GivesPaths (fun _ => none) flags { shipped := some ['g'], user := some ['l'] } :=
    givesPaths_attached (List.cons_ne_nil _ _) (List.cons_ne_nil _ _) _
  exact ⟨hps, hentries, hnames, runAll_eq_persist CodeEngines.none (Engine.new ()) {} hflags
    (Engine.readText_twoFiles_shipped shippedText userText)
    (Engine.readText_twoFiles_user shippedText userText)
    (Engine.locate?_twoFiles shippedText userText) hps hentries (List.cons_ne_nil _ _) hnames⟩

/-- **A name that is not taken for one.** The user's patch `-x` has entries and is in the list, but
as an argument of its own its name is read as a flag that does not exist. -/
theorem enable_dashed_name :
    let userText := "[OnFrame]\n$-x\n0x0:byte:0x1\n".toList
    let t := Engine.twoFiles [] userText
    let ps := Patch.frames (Ini.Store.parse []) (Ini.Store.parse userText)
    let name := ['-', 'x']
    let line := twoPaths ++ [Command.toggleName true, name]
    t.readText ['g'] = .ok [] ∧ t.readText ['l'] = .ok userText ∧
      t.locate? ['g'] ≠ t.locate? ['l'] ∧
      (∀ p, (ps.filter (·.userDefined)).getLast? = some p → p.entries ≠ []) ∧
      name ∈ ps.map (·.name) ∧
      run line (fun _ => none) t = (t, .stopped .misuse) ∧
      (run line (fun _ => none) t).2.exitCode = 2 := by
  intro userText t ps name line
  have hlast : (ps.filter (·.userDefined)).getLast? =
      some { name, entries := [⟨0, .byte, 1, false, 0⟩], userDefined := true } := by
    decide
  have hrun : run line (fun _ => none) t = (t, .stopped .misuse) := by
    rw [run, program, givesPaths_twoPaths _ _ (by decide)]
    rfl
  refine ⟨Engine.readText_twoFiles_shipped [] userText, Engine.readText_twoFiles_user [] userText,
    Engine.locate?_twoFiles [] userText, ?_, by decide, hrun, ?_⟩
  · intro p hp
    obtain rfl := Option.some.inj (hlast.symm.trans hp)
    exact List.cons_ne_nil _ _
  · rw [hrun]
    rfl

end CommandLine

end FramePatch
