import FramePatch.Proofs.CommandLine.Lines
import FramePatch.Proofs.CommandLine.Run
import FramePatch.Proofs.Engine.Persistence
import FramePatch.Proofs.SpeedTable

/-!
# Setting a cycle count and showing it

Two runs of the program, one that sets the cycle count of an address and one that shows it. The
first one edits the row that spells the address with eight hexadecimal digits, while the second one
reads every row that denotes it, so what it shows is decided by the rows behind the edited one
(`SpeedTable.countBehind?`).

- `showCycles_after_setCycles`: what is shown after a count was set with exit code 0. It is the new
  count exactly if no row behind the edited one says otherwise.
- `showCycles_shadowed`: a row behind it that does.
-/

namespace FramePatch.CommandLine

/-- What reads as a word does not look like a flag. -/
theorem looksLikeFlag_of_read? {t : Text} {w : UInt32} (h : Literal.read? t = some w) :
    looksLikeFlag t = false := by
  rw [Bool.eq_false_iff]
  intro hflag
  rw [looksLikeFlag.eq_def] at hflag
  split at hflag
  · next ch rest =>
    -- a dash is neither a blank nor a plus sign, and no digit
    have hnone : Literal.read? ('-' :: ch :: rest) = none := rfl
    exact nomatch hnone.symm.trans h
  · exact Bool.false_ne_true hflag

namespace Command

variable {paths : ConfigPaths} {l : Text} {shipped user : Ini.Store} {address cycles : Text}
  {a c : UInt32}

/-- Setting a count saves the user's store with the row of the address set. -/
theorem plan_setCycles (hpath : paths.user = some l) (ha : Literal.read? address = some a)
    (hc : Literal.read? cycles = some c) :
    (setCycles address cycles).plan paths shipped user =
      .save l (SpeedTable.setCycles · a c) (unlines [cyclesLine (a, c)]) := by
  simp only [plan, ha, hc, planSetCycles, hpath, SpeedTable.setCycles]

/-- Showing a count prints what the table of both stores says. -/
theorem plan_showCycles (ha : Literal.read? address = some a) :
    (showCycles address).plan paths shipped user =
      .print (unlines [Literal.decimal ((SpeedTable.ofSources SpeedTable.speedhacksSection
        [shipped.toSource, user.toSource]).cycles a)]) := by
  simp only [plan, ha]
  rfl

end Command

section SpeedRow

variable {environment : Text → Option Text} {flags : List Text} {g l : Text}
  (hflags : GivesPaths environment flags { shipped := some g, user := some l })
  {address cycles : Text} {a c : UInt32} (ha : Literal.read? address = some a)

include hflags ha

/-- Setting a count always works on two files that hold texts. -/
theorem run_setLine (hc : Literal.read? cycles = some c) {t : FileTree} {loc : Location}
    {shippedText userText : Text} (hg : t.readText g = .ok shippedText)
    (hl : t.readText l = .ok userText) (hloc : t.locate? l = some loc) :
    let stored := SpeedTable.setCycles (Ini.Store.parse userText) a c
    stored.saveFile t l = (t.put loc (.file stored.toBytes), .ok ()) ∧
      run (setLine flags address cycles) environment t =
        (t.put loc (.file stored.toBytes),
          .done (Command.unlines [Command.cyclesLine (a, c)])) := by
  intro stored
  have hparse := parse_setLine hflags (looksLikeFlag_of_read? ha) (looksLikeFlag_of_read? hc)
  have hread := ConfigPaths.read_eq_ok_iff.2
    ⟨Ini.Store.load_of_readText hg, Ini.Store.load_of_readText hl⟩
  have hsave := Ini.Store.saveFile_of_readText stored hl hloc
  exact ⟨hsave, run_of_save hparse hread (Command.plan_setCycles rfl ha hc) hsave⟩

/-- What is shown once the user's store has been saved with the row of the address set. -/
theorem run_showLine_of_saveFile {t u : FileTree} {shippedText : Text}
    (hg : t.readText g = .ok shippedText) {user : Ini.Store} (hl : Ini.Store.load t l = .ok user)
    (hsave : (SpeedTable.setCycles user a c).saveFile t l = (u, .ok ())) :
    (∃ shippedAfter userAfter,
      ConfigPaths.read { shipped := some g, user := some l } u = .ok (shippedAfter, userAfter) ∧
      (SpeedTable.ofSources SpeedTable.speedhacksSection
        [shippedAfter.toSource, userAfter.toSource]).cycles a =
          (SpeedTable.countBehind? user a).getD c) ∧
      run (showLine flags address) environment u =
        (u, .done (Command.unlines
          [Literal.decimal ((SpeedTable.countBehind? user a).getD c)])) := by
  have huserAfter : Ini.Store.load u l = .ok (SpeedTable.setCycles user a c) :=
    Ini.Store.load_of_saveFile
      (SpeedTable.wellFormed_setCycles (Ini.Store.wellFormed_of_load hl) a c) hsave
  obtain ⟨shippedAfter, hshippedAfter⟩ : ∃ shippedAfter, Ini.Store.load u g = .ok shippedAfter :=
    ⟨_, Ini.Store.load_of_readText (Ini.Store.readText_of_saveFile hsave hg)⟩
  have hread := ConfigPaths.read_eq_ok_iff.2 ⟨hshippedAfter, huserAfter⟩
  have hcycles := SpeedTable.cycles_set shippedAfter.toSource user a c
  refine ⟨⟨shippedAfter, _, hread, hcycles⟩, ?_⟩
  refine run_of_ok (parse_showLine hflags (looksLikeFlag_of_read? ha)) ?_
  refine (Invocation.run_eq_ok_iff hread).2 (.inl ⟨?_, rfl⟩)
  rw [Command.plan_showCycles ha, hcycles]

/-- **Showing a count after it was set.** Let both paths be given and the shipped file be there. If
the line that sets the count of an address ends with exit code 0, then both configurations can be
read afterwards, and the address has the count that was set, unless a row behind the row of the
address has another one for it. The line that shows the count prints just that. -/
theorem showCycles_after_setCycles (hc : Literal.read? cycles = some c) {t u : FileTree}
    {content : ByteArray} (hg : t.read g = .ok content) {r : Result}
    (hset : run (setLine flags address cycles) environment t = (u, r)) (hexit : r.exitCode = 0) :
    ∃ user, Ini.Store.load t l = .ok user ∧
      let behind := SpeedTable.countBehind? user a
      (∃ shippedAfter userAfter,
        ConfigPaths.read { shipped := some g, user := some l } u = .ok (shippedAfter, userAfter) ∧
        (SpeedTable.ofSources SpeedTable.speedhacksSection
          [shippedAfter.toSource, userAfter.toSource]).cycles a = behind.getD c) ∧
      run (showLine flags address) environment u =
        (u, .done (Command.unlines [Literal.decimal (behind.getD c)])) ∧
      (run (showLine flags address) environment u =
        (u, .done (Command.unlines [Literal.decimal c])) ↔ ∀ n, behind = some n → n = c) := by
  have hparse := parse_setLine hflags (looksLikeFlag_of_read? ha) (looksLikeFlag_of_read? hc)
  obtain ⟨output, hrun⟩ := ok_of_exitCode hparse hset hexit
  obtain ⟨shipped, user, hread⟩ := Invocation.read_of_run hrun
  obtain ⟨hshipped, huser⟩ := ConfigPaths.read_eq_ok_iff.1 hread
  -- the run cannot have printed without saving the store with the row set
  have hsave : (SpeedTable.setCycles user a c).saveFile t l = (u, .ok ()) := by
    have hdone := (Invocation.run_eq_ok_iff hread).1 hrun
    rw [Command.plan_setCycles rfl ha hc] at hdone
    rcases hdone with ⟨hprint, -⟩ | ⟨path, edit, hplan, hsave⟩
    · exact nomatch hprint
    · obtain ⟨rfl, rfl, -⟩ := Plan.save.inj hplan
      exact hsave
  obtain ⟨text, htext⟩ := Ini.Store.readText_of_load hg hshipped
  obtain ⟨htable, hshow⟩ := run_showLine_of_saveFile hflags ha htext huser hsave
  refine ⟨user, huser, htable, hshow, ?_⟩
  rw [hshow]
  constructor
  · intro hsame n hn
    have hline : Literal.decimal n = Literal.decimal c := by
      simpa [Command.unlines, hn] using hsame
    exact Literal.decimal_injective hline
  · intro hbehind
    cases hn : SpeedTable.countBehind? user a with
    | none => rfl
    | some n =>
      rw [hbehind n hn]
      rfl

end SpeedRow

/-- The count is shown where the row of the address, in whatever case, is the last one about it. -/
theorem showCycles_last :
    let shippedText := "[Speedhacks]\n0x80003000 = 200".toList
    let userText := "[Speedhacks]\n2147495936 = 1\n0X80003000 = 5\n0x80003004 = 6".toList
    let t := Engine.twoFiles shippedText userText
    let address := "020000030000".toList
    GivesPaths (fun _ => none) twoPaths { shipped := some ['g'], user := some ['l'] } ∧
      Literal.read? address = some 0x80003000 ∧ Literal.read? "+40".toList = some 40 ∧
      ∃ content u r, t.read ['g'] = .ok content ∧
        run (setLine twoPaths address "+40".toList) (fun _ => none) t = (u, r) ∧ r.exitCode = 0 ∧
        run (showLine twoPaths address) (fun _ => none) u = (u, .done "40\n".toList) := by
  intro shippedText userText t address
  have ha : Literal.read? address = some 0x80003000 := by decide
  have hc : Literal.read? "+40".toList = some 40 := by decide
  have hg : t.readText ['g'] = .ok shippedText :=
    Engine.readText_twoFiles_shipped shippedText userText
  have hl : t.readText ['l'] = .ok userText := Engine.readText_twoFiles_user shippedText userText
  have hbytes := FileTree.readText_eq_ok_iff.1 hg
  have hset := (run_setLine givesPaths_twoPaths ha hc hg hl rfl).2
  obtain ⟨user, huser, -, -, hshow⟩ :=
    showCycles_after_setCycles givesPaths_twoPaths ha hc hbytes hset rfl
  refine ⟨givesPaths_twoPaths, ha, hc, _, _, _, hbytes, hset, rfl, hshow.2 fun n hn => ?_⟩
  have hparsed : user = Ini.Store.parse userText :=
    Except.ok.inj (huser.symm.trans (Ini.Store.load_of_readText hl))
  have hbehind : SpeedTable.countBehind? (Ini.Store.parse userText) 0x80003000 = none := by decide
  rw [hparsed, hbehind] at hn
  exact nomatch hn

/-- **A count that is set and not shown.** The user's section has two rows about one address. The
first one has the key that is looked for, so it is changed, and the second one still counts. -/
theorem showCycles_shadowed :
    let userText := "[Speedhacks]\n0x80003000 = 1\n2147495936 = 2\n".toList
    let t := Engine.twoFiles [] userText
    let address := "0x80003000".toList
    GivesPaths (fun _ => none) twoPaths { shipped := some ['g'], user := some ['l'] } ∧
      Literal.read? address = some 0x80003000 ∧ Literal.read? "40".toList = some 40 ∧
      t.readText ['g'] = .ok [] ∧ ∃ u r,
        run (setLine twoPaths address "40".toList) (fun _ => none) t = (u, r) ∧ r.exitCode = 0 ∧
        run (showLine twoPaths address) (fun _ => none) u = (u, .done "2\n".toList) := by
  intro userText t address
  have ha : Literal.read? address = some 0x80003000 := by decide
  have hc : Literal.read? "40".toList = some 40 := by decide
  have hg : t.readText ['g'] = .ok [] := Engine.readText_twoFiles_shipped [] userText
  have hl : t.readText ['l'] = .ok userText := Engine.readText_twoFiles_user [] userText
  obtain ⟨hsave, hset⟩ := run_setLine givesPaths_twoPaths ha hc hg hl rfl
  have hbehind : SpeedTable.countBehind? (Ini.Store.parse userText) 0x80003000 = some 2 := by
    decide
  have hshow :=
    (run_showLine_of_saveFile givesPaths_twoPaths ha hg (Ini.Store.load_of_readText hl) hsave).2
  rw [hbehind] at hshow
  exact ⟨givesPaths_twoPaths, ha, hc, hg, _, _, hset, rfl, hshow⟩

end FramePatch.CommandLine
