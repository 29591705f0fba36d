import FramePatch.Proofs.CommandLine.SpeedRow
import FramePatch.Proofs.SpeedTable.Runs

/-!
# Listing the speed table

The listing of a speed table is the body of a section that reads back as the table: with a header
in front of it, it is the text of a store with that one section.

- `parse_listing`: a listing with its header is read as the store that it prints.
- `load_listing`: so the section loads as the table.
- `listing_readsBack`: the same of what a run of the program prints, for all configurations, on any
  file system.
-/

namespace FramePatch

universe u

namespace CommandLine

/-! ## The text of a listing -/

namespace Command

theorem plainName_speedhacks : Ini.PlainName SpeedTable.speedhacksSection :=
  ⟨⟨by decide, by decide⟩, by decide, by decide⟩

/-- The lines of a listing, with a header in front of them, are the text of a store. -/
theorem print_listing (t : SpeedTable) :
    "[Speedhacks]\n".toList ++ unlines (t.rows.map cyclesLine) =
      Ini.Store.print ⟨[⟨SpeedTable.speedhacksSection, t.rows.map cyclesLine⟩]⟩ := rfl

/-- **A listing with its header** is read as that store. -/
theorem parse_listing (t : SpeedTable) :
    Ini.Store.parse ("[Speedhacks]\n".toList ++ unlines (t.rows.map cyclesLine)) =
      ⟨[⟨SpeedTable.speedhacksSection, t.rows.map cyclesLine⟩]⟩ := by
  rw [print_listing]
  refine Ini.Store.parse_print ⟨List.nodup_singleton _, ?_, ?_⟩
  · intro s hs
    obtain rfl := List.mem_singleton.1 hs
    exact plainName_speedhacks
  · intro s hs line hline
    obtain rfl := List.mem_singleton.1 hs
    obtain ⟨r, -, rfl⟩ := List.mem_map.1 hline
    exact Literal.plainLine_row r.1 r.2

/-- A line of a listing is a row with the words that it was printed from. -/
theorem row?_cyclesLine (r : UInt32 × UInt32) :
    Ini.row? (cyclesLine r) = some (Literal.hex r.1, Literal.decimal r.2) := by
  rw [cyclesLine, Ini.row?_rowLine (Literal.plainKey_hex r.1), Literal.unquote_decimal]

/-- **A listing loads as the table** that was listed. -/
theorem load_listing (t : SpeedTable) :
    SpeedTable.empty.load
      (Ini.Store.parse ("[Speedhacks]\n".toList ++ unlines (t.rows.map cyclesLine))).toSource
      SpeedTable.speedhacksSection = t := by
  let store : Ini.Store := ⟨[⟨SpeedTable.speedhacksSection, t.rows.map cyclesLine⟩]⟩
  have hwords : (store.rows SpeedTable.speedhacksSection).filterMap SpeedTable.words? = t.rows := by
    show ((t.rows.map cyclesLine).filterMap Ini.row?).filterMap SpeedTable.words? = t.rows
    rw [List.filterMap_map, List.filterMap_filterMap]
    simp [row?_cyclesLine, SpeedTable.words?]
  rw [parse_listing, SpeedTable.load, SpeedTable.foldl_insertLine_eq]
  show List.foldl _ _ ((store.rows SpeedTable.speedhacksSection).filterMap SpeedTable.words?) = t
  rw [hwords, SpeedTable.foldl_insert_rows]

end Command

/-! ## Listing by a line -/

/-- The line that lists the speed table. -/
def tableLine (flags : List Text) : List Text := flags ++ [Command.speedhackName]

section Lines

variable {environment : Text → Option Text} {flags : List Text} {paths : ConfigPaths}
  (hflags : GivesPaths environment flags paths) {φ : Type u} [FileSystem φ]

include hflags

theorem parse_tableLine :
    Invocation.parse (tableLine flags) environment = .ok ⟨paths, .showTable⟩ := by
  rw [tableLine, hflags _ _ (by decide), Command.parse_speedhack]
  rfl

/-- A listing shows the table of both stores. -/
theorem run_tableLine {s : φ} {shipped user : Ini.Store}
    (hread : paths.read s = .ok (shipped, user)) :
    run (tableLine flags) environment s =
      (s, .done (Command.unlines ((SpeedTable.ofSources SpeedTable.speedhacksSection
        [shipped.toSource, user.toSource]).rows.map Command.cyclesLine))) :=
  run_of_ok (parse_tableLine hflags) (Invocation.run_of_print hread rfl)

/-- **What a listing says.** If the line that lists the speed table ends with exit code 0, then both
configurations could be read, and what it printed is a faithful encoding of their table: under the
header of its section it loads into an empty table as just that table. The rows are printed in
strictly ascending order of their addresses. -/
theorem listing_readsBack {s t : φ} {r : Result}
    (hrun : run (tableLine flags) environment s = (t, r)) (hexit : r.exitCode = 0) :
    ∃ shipped user, paths.read s = .ok (shipped, user) ∧
      let listed := SpeedTable.ofSources SpeedTable.speedhacksSection
        [shipped.toSource, user.toSource]
      SpeedTable.empty.load (Ini.Store.parse ("[Speedhacks]\n".toList ++ r.output)).toSource
          SpeedTable.speedhacksSection = listed ∧
        r.output = Command.unlines (listed.rows.map Command.cyclesLine) ∧
        listed.rows.Pairwise (·.1 < ·.1) := by
  obtain ⟨output, hok⟩ := ok_of_exitCode (parse_tableLine hflags) hrun hexit
  obtain ⟨shipped, user, hread⟩ := Invocation.read_of_run hok
  obtain ⟨-, rfl⟩ := Prod.mk.inj ((run_tableLine hflags hread).symm.trans hrun)
  exact ⟨shipped, user, hread, Command.load_listing _, rfl, SpeedTable.ascending _⟩

end Lines

/-- Rows in every spelling, in any order, about two addresses. One is overridden by the user, and
the other one has the greatest count there is. -/
theorem listing_readsBack_spellings :
    let shippedText := "[Speedhacks]\n0x80004000 = \"037777777777\"\n0x80003000 = 200".toList
    let userText := "[speedhacks]\n2147495936 = 0\nlots = 1\n".toList
    let t := Engine.twoFiles shippedText userText
    GivesPaths (fun _ => none) twoPaths { shipped := some ['g'], user := some ['l'] } ∧
      ∃ u r, run (tableLine twoPaths) (fun _ => none) t = (u, r) ∧ r.exitCode = 0 ∧
        r.output = "0x80003000 = 0\n0x80004000 = 4294967295\n".toList ∧
        (SpeedTable.empty.load (Ini.Store.parse ("[Speedhacks]\n".toList ++ r.output)).toSource
          SpeedTable.speedhacksSection).rows = [(0x80003000, 0), (0x80004000, 4294967295)] := by
  intro shippedText userText t
  have hread : ConfigPaths.read { shipped := some ['g'], user := some ['l'] } t =
      .ok (Ini.Store.parse shippedText, Ini.Store.parse userText) :=
    ConfigPaths.read_eq_ok_iff.2
      ⟨Ini.Store.load_of_readText (Engine.readText_twoFiles_shipped shippedText userText),
        Ini.Store.load_of_readText (Engine.readText_twoFiles_user shippedText userText)⟩
  have hrun := run_tableLine givesPaths_twoPaths hread
  obtain ⟨shipped, user, hread', hload, -⟩ := listing_readsBack givesPaths_twoPaths hrun rfl
  obtain ⟨rfl, rfl⟩ := Prod.mk.inj (Except.ok.inj (hread.symm.trans hread'))
  have hrows : (SpeedTable.ofSources SpeedTable.speedhacksSection
      [(Ini.Store.parse shippedText).toSource, (Ini.Store.parse userText).toSource]).rows =
        [(0x80003000, 0), (0x80004000, 4294967295)] := by decide
  refine ⟨givesPaths_twoPaths, t, _, hrun, rfl, ?_, ?_⟩
  · rw [hrows]
    decide
  · rw [hload, hrows]

end CommandLine

end FramePatch
