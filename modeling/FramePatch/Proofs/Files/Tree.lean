import FramePatch.Files.Tree
import Mathlib.Data.List.Basic

/-!
# What file operations keep

Saving a file puts it where its path leads and touches nothing else. The directories made on the way
were not there before, and the file takes the place of a file or of nothing, so every path that led
somewhere before leads there afterwards.

- `locate?`: where a path leads. Reading is reading what is there (`read_eq_ok_iff`), and two paths
  are paths of one file exactly if they lead to one location.
- `enter_mono`: resolving a path depends on the directories only.
- `MadeWay`: what making directories may change, and does (`makeDirectories_madeWay`, by induction
  on the names). All nodes that were there are kept, whether it succeeds or not.
- `save_cases`: everything that a save can do. Whether it fails does not depend on what is saved
  (`save_congr`).
- `wrote_of_save`: a save that succeeds is a write at the location of its path (`Wrote`), from which
  follow what the saved path reads (`Wrote.read_self`) and what other paths do (`Wrote.read_other`).
-/

namespace FramePatch

/-- Steps in a row succeed exactly if each of them does. -/
theorem bind_eq_ok_iff {ε α β : Type} {x : Except ε α} {f : α → Except ε β} {b : β} :
    x >>= f = .ok b ↔ ∃ a, x = .ok a ∧ f a = .ok b := by
  cases x with
  | error e =>
    constructor
    · intro h
      exact nomatch h
    · rintro ⟨a, ha, -⟩
      exact nomatch ha
  | ok a =>
    constructor
    · intro h
      exact ⟨a, rfl, h⟩
    · rintro ⟨a', ha, h⟩
      rw [Except.ok.inj ha]
      exact h

/-- A step that succeeded hands its value on. -/
theorem ok_bind {ε α β : Type} (a : α) (f : α → Except ε β) : (Except.ok a >>= f) = f a := rfl

namespace FileTree

/-! ## Where paths lead -/

theorem lastName?_eq_some_iff {names outer : List Text} {last : Text} :
    lastName? names = some (outer, last) ↔ names = outer ++ [last] := by
  rcases names.eq_nil_or_concat' with rfl | ⟨front, name, rfl⟩
  · simp [lastName?]
  · simp [lastName?, eq_comm]

/-- A name that stands for no directory of its own is a step down. -/
theorem follow_of_ne {l : Location} {name : Text} (hhere : name ≠ here) (hup : name ≠ up) :
    follow l name = l ++ [name] := by
  rw [follow, if_neg hhere, if_neg hup]

/-- The location that a path leads to, if there is a way. -/
def locate? (t : FileTree) (path : Text) : Option Location :=
  (lastName? (pathNames path)).bind fun names =>
    (t.enter (t.origin path) names.1).toOption.map (follow · names.2)

/-- A path leads through the directories of its outer names and then follows its last name. -/
theorem locate?_eq_some_iff {t : FileTree} {path : Text} {loc : Location} :
    t.locate? path = some loc ↔ ∃ outer last l, lastName? (pathNames path) = some (outer, last) ∧
      t.enter (t.origin path) outer = .ok l ∧ follow l last = loc := by
  rw [locate?, Option.bind_eq_some_iff]
  constructor
  · rintro ⟨⟨outer, last⟩, hnames, hlead⟩
    obtain ⟨l, hl, hfollow⟩ := Option.map_eq_some_iff.1 hlead
    refine ⟨outer, last, l, hnames, ?_, hfollow⟩
    cases henter : t.enter (t.origin path) outer with
    | error fault =>
      rw [henter] at hl
      exact absurd hl (Option.some_ne_none l).symm
    | ok k =>
      rw [henter] at hl
      exact congrArg Except.ok (Option.some.inj hl)
  · rintro ⟨outer, last, l, hnames, henter, hfollow⟩
    refine ⟨(outer, last), hnames, ?_⟩
    show (t.enter (t.origin path) outer).toOption.map (follow · last) = some loc
    rw [henter, ← hfollow]
    rfl

/-- A path reads as the file where it leads. -/
theorem read_eq_ok_iff {t : FileTree} {path : Text} {bytes : ByteArray} :
    t.read path = .ok bytes ↔ meansDirectory path = false ∧
      ∃ loc, t.locate? path = some loc ∧ t.node? loc = some (.file bytes) := by
  rw [read]
  cases hnames : lastName? (pathNames path) with
  | none => simp [locate?, hnames]
  | some names =>
    obtain ⟨outer, last⟩ := names
    simp only [bind_eq_ok_iff]
    constructor
    · rintro ⟨l, henter, hread⟩
      cases hnode : t.node? (follow l last) with
      | none => simp [hnode] at hread
      | some n =>
        cases n with
        | directory => simp [hnode] at hread
        | file found =>
          rw [hnode] at hread
          cases hm : meansDirectory path with
          | true => simp [hm] at hread
          | false =>
            simp only [hm, Bool.false_eq_true, if_false, Except.ok.injEq] at hread
            refine ⟨rfl, follow l last, ?_, hread ▸ hnode⟩
            exact locate?_eq_some_iff.2 ⟨outer, last, l, hnames, henter, rfl⟩
    · rintro ⟨hfile, loc, hloc, hnode⟩
      obtain ⟨outer', last', l, hnames', henter, rfl⟩ := locate?_eq_some_iff.1 hloc
      obtain ⟨rfl, rfl⟩ := Prod.mk.inj (Option.some.inj (hnames.symm.trans hnames'))
      exact ⟨l, henter, by simp [hnode, hfile]⟩

/-- A write succeeds if its path leads through directories to a name of its own, and not to a
directory. -/
theorem write_eq_ok_iff {t u : FileTree} {path : Text} {bytes : ByteArray} :
    t.write path bytes = .ok u ↔ meansDirectory path = false ∧
      ∃ outer last l, lastName? (pathNames path) = some (outer, last) ∧
        t.enter (t.origin path) outer = .ok l ∧ last ≠ here ∧ last ≠ up ∧
        t.node? (l ++ [last]) ≠ some .directory ∧ u = t.put (l ++ [last]) (.file bytes) := by
  rw [write]
  cases hnames : lastName? (pathNames path) with
  | none => simp
  | some names =>
    obtain ⟨outer, last⟩ := names
    simp only [bind_eq_ok_iff]
    constructor
    · rintro ⟨l, henter, h⟩
      split at h
      · exact nomatch h
      · next hlast =>
        simp only [not_or, Bool.not_eq_true] at hlast
        split at h
        · exact nomatch h
        · next hdir =>
          exact ⟨hlast.2.2, outer, last, l, rfl, henter, hlast.1, hlast.2.1, hdir,
            (Except.ok.inj h).symm⟩
    · rintro ⟨hfile, outer', last', l, hsame, henter, hhere, hup, hdir, rfl⟩
      obtain ⟨rfl, rfl⟩ := Prod.mk.inj (Option.some.inj hsame)
      refine ⟨l, henter, ?_⟩
      rw [if_neg (by simp [hhere, hup, hfile])]
      split
      · next hthere => exact absurd hthere hdir
      · rfl

/-- A write that succeeds puts a file where its path leads, in place of a file or of nothing. -/
theorem of_write {t u : FileTree} {path : Text} {bytes : ByteArray}
    (h : t.write path bytes = .ok u) : meansDirectory path = false ∧
      ∃ loc, t.locate? path = some loc ∧ t.node? loc ≠ some .directory ∧
        u = t.put loc (.file bytes) := by
  obtain ⟨hfile, outer, last, l, hnames, henter, hhere, hup, hdir, hu⟩ := write_eq_ok_iff.1 h
  refine ⟨hfile, l ++ [last], ?_, hdir, hu⟩
  exact locate?_eq_some_iff.2 ⟨outer, last, l, hnames, henter, follow_of_ne hhere hup⟩

/-- A write that succeeds would have succeeded with other bytes. -/
theorem write_congr {t u : FileTree} {path : Text} {bytes : ByteArray}
    (h : t.write path bytes = .ok u) (bytes' : ByteArray) : ∃ u', t.write path bytes' = .ok u' := by
  obtain ⟨hfile, outer, last, l, hnames, henter, hhere, hup, hdir, -⟩ := write_eq_ok_iff.1 h
  exact ⟨_, write_eq_ok_iff.2 ⟨hfile, outer, last, l, hnames, henter, hhere, hup, hdir, rfl⟩⟩

/-! ## Directories -/

/-- Resolving a path asks for directories only. -/
theorem enter_mono {t u : FileTree}
    (h : ∀ k, t.node? k = some .directory → u.node? k = some .directory) {l l' : Location}
    {names : List Text} (henter : t.enter l names = .ok l') : u.enter l names = .ok l' := by
  induction names generalizing l with
  | nil => exact henter
  | cons name rest ih =>
    rw [enter] at henter
    split at henter
    · exact nomatch henter
    · exact nomatch henter
    · next hdir =>
      -- the only case in which the way goes on
      rw [enter, h _ hdir]
      exact ih henter

/-- A path leads where it led before, if all directories are still there. -/
theorem locate?_mono {t u : FileTree} (hstart : u.start = t.start)
    (h : ∀ k, t.node? k = some .directory → u.node? k = some .directory) {path : Text}
    {loc : Location} (hloc : t.locate? path = some loc) : u.locate? path = some loc := by
  obtain ⟨outer, last, l, hnames, henter, hfollow⟩ := locate?_eq_some_iff.1 hloc
  have horigin : u.origin path = t.origin path := by rw [origin, origin, hstart]
  refine locate?_eq_some_iff.2 ⟨outer, last, l, hnames, ?_, hfollow⟩
  rw [horigin]
  exact enter_mono h henter

/-- The location that names lead to from a directory, whatever is there. -/
def walk (l : Location) (names : List Text) : Location := names.foldl follow l

theorem walk_of_enter {t : FileTree} {l k : Location} {names : List Text}
    (henter : t.enter l names = .ok k) : k = walk l names := by
  induction names generalizing l with
  | nil => exact (Except.ok.inj henter).symm
  | cons name rest ih =>
    rw [enter] at henter
    split at henter
    · exact nomatch henter
    · exact nomatch henter
    · exact ih henter

/-- The tree `u` is the tree `t`, but for new directories on the way that names lead from a
location. -/
structure MadeWay (t : FileTree) (l : Location) (names : List Text) (u : FileTree) : Prop where
  start : u.start = t.start
  nodes : ∀ k, u.node? k = t.node? k ∨
    t.node? k = none ∧ u.node? k = some .directory ∧ ∃ front, front <+: names ∧ k = walk l front

namespace MadeWay

variable {t u v : FileTree} {l : Location} {names front : List Text}

theorem refl (t : FileTree) (l : Location) (names : List Text) : MadeWay t l names t :=
  ⟨rfl, fun _ => .inl rfl⟩

/-- Whatever was there is there. -/
theorem kept (h : MadeWay t l names u) {k : Location} {n : FileNode} (hn : t.node? k = some n) :
    u.node? k = some n := by
  rcases h.nodes k with hsame | ⟨hnone, -, -⟩
  · rw [hsame, hn]
  · exact absurd (hnone.symm.trans hn) (Option.some_ne_none n).symm

/-- The files are the same. -/
theorem file_iff (h : MadeWay t l names u) {k : Location} {bytes : ByteArray} :
    u.node? k = some (.file bytes) ↔ t.node? k = some (.file bytes) := by
  refine ⟨fun hu => ?_, h.kept⟩
  rcases h.nodes k with hsame | ⟨-, hdir, -⟩
  · rw [← hsame, hu]
  · exact nomatch hdir.symm.trans hu

/-- Part of the way can be made first. -/
theorem trans (htu : MadeWay t l front u) (hfront : front <+: names) (huv : MadeWay u l names v) :
    MadeWay t l names v := by
  refine ⟨huv.start.trans htu.start, fun k => ?_⟩
  rcases htu.nodes k with hsame | ⟨hnone, hdir, way, hway, hk⟩
  · rw [← hsame]
    exact huv.nodes k
  · exact .inr ⟨hnone, huv.kept hdir, way, hway.trans hfront, hk⟩

end MadeWay

/-- A directory is made where nothing was, at the end of the way. -/
theorem makeDirectory_madeWay {t u : FileTree} {l : Location} {names : List Text}
    (h : t.makeDirectory l names = .ok u) : MadeWay t l names u := by
  rw [makeDirectory] at h
  cases hnames : lastName? names with
  | none => simp [hnames] at h
  | some ns =>
    obtain ⟨outer, last⟩ := ns
    obtain rfl := lastName?_eq_some_iff.1 hnames
    simp only [hnames, bind_eq_ok_iff] at h
    obtain ⟨m, henter, h⟩ := h
    split at h
    · exact nomatch h
    · next hlast =>
      rw [not_or] at hlast
      have hend : m ++ [last] = walk l (outer ++ [last]) := by
        rw [walk, List.foldl_append, walk_of_enter henter]
        exact (follow_of_ne hlast.1 hlast.2).symm
      split at h
      · exact nomatch h
      · next hnone =>
        obtain rfl := Except.ok.inj h
        refine ⟨rfl, fun k => ?_⟩
        by_cases hk : k = m ++ [last]
        · subst hk
          have hstart : ¬m ++ [last] <+: t.start := fun hle => nomatch hnone.symm.trans (if_pos hle)
          exact .inr ⟨hnone, node?_put_self t _ hstart, _, List.prefix_rfl, hend⟩
        · exact .inl (node?_put_other t _ hk)

/-- **Making directories** does nothing but make directories on the way, also where it fails. -/
theorem makeDirectories_madeWay (t : FileTree) (l : Location) (names : List Text) :
    MadeWay t l names.reverse (t.makeDirectories l names).tree := by
  induction names generalizing t with
  | nil => exact .refl t l _
  | cons last outer ih =>
    have houter : outer.reverse <+: (last :: outer).reverse := by
      rw [List.reverse_cons]
      exact List.prefix_append _ _
    -- either the innermost directory is made at once, or the outer ones are made before it
    rw [makeDirectories]
    split
    · next h => exact makeDirectory_madeWay h
    · split
      · split
        · next h =>
          have hway := ih t
          rw [h] at hway
          exact hway.trans houter (.refl _ l _)
        · next h =>
          have hway := ih t
          rw [h] at hway
          split
          · next hlast => exact hway.trans houter (makeDirectory_madeWay hlast)
          · exact hway.trans houter (.refl _ l _)
      · exact .refl t l _

/-! ## Saving -/

/-- The tree `u` has the bytes at a location, and all that `t` has elsewhere. -/
structure Wrote (t : FileTree) (loc : Location) (bytes : ByteArray) (u : FileTree) : Prop where
  start : u.start = t.start
  file : u.node? loc = some (.file bytes)
  others : ∀ k n, k ≠ loc → t.node? k = some n → u.node? k = some n
  noDirectory : t.node? loc ≠ some .directory

/-- A file is put where no directory is, so it is found there. -/
theorem wrote_put {t : FileTree} {loc : Location} (bytes : ByteArray)
    (h : t.node? loc ≠ some .directory) : Wrote t loc bytes (t.put loc (.file bytes)) := by
  have hstart : ¬loc <+: t.start := by
    intro hle
    exact h (if_pos hle)
  -- the directories around the working directory are not covered by what is put there
  refine ⟨rfl, node?_put_self t _ hstart, fun k n hk hn => ?_, h⟩
  rw [node?_put_other t _ hk]
  exact hn

namespace Wrote

variable {t u : FileTree} {loc : Location} {bytes : ByteArray}

/-- Paths lead where they led before. -/
theorem locate? (h : Wrote t loc bytes u) {path : Text} {k : Location}
    (hk : t.locate? path = some k) : u.locate? path = some k := by
  refine locate?_mono h.start (fun j hj => h.others j _ ?_ hj) hk
  rintro rfl
  exact h.noDirectory hj

/-- A path that leads to the location reads as what was written. -/
theorem read_self (h : Wrote t loc bytes u) {path : Text} (hpath : u.locate? path = some loc)
    (hfile : meansDirectory path = false) : u.read path = .ok bytes :=
  read_eq_ok_iff.2 ⟨hfile, loc, hpath, h.file⟩

/-- A path that led elsewhere reads as before. -/
theorem read_other (h : Wrote t loc bytes u) {path : Text} {old : ByteArray}
    (hread : t.read path = .ok old) (hne : t.locate? path ≠ some loc) : u.read path = .ok old := by
  obtain ⟨hfile, k, hk, hnode⟩ := read_eq_ok_iff.1 hread
  have hother : k ≠ loc := by
    rintro rfl
    exact hne hk
  exact read_eq_ok_iff.2 ⟨hfile, k, h.locate? hk, h.others k _ hother hnode⟩

end Wrote

/-- **What a save can do.** It makes directories on the way to its path. Then it either fails or
puts the file where the path leads, in place of a file or of nothing. -/
theorem save_cases (t : FileTree) (path : Text) (bytes : ByteArray) :
    ∃ made, MadeWay t (t.origin path) (parentNames path) made ∧
      ((∃ fault, t.save path bytes = ⟨made, some fault⟩) ∨
        meansDirectory path = false ∧ ∃ loc, made.locate? path = some loc ∧
          made.node? loc ≠ some .directory ∧
          t.save path bytes = ⟨made.put loc (.file bytes), none⟩) := by
  have hway := t.makeDirectories_madeWay (t.origin path) (parentNames path).reverse
  rw [List.reverse_reverse] at hway
  refine ⟨_, hway, ?_⟩
  rw [save]
  split
  · next fault hmade => exact .inl ⟨fault, by rw [hmade]⟩
  · next made hmade =>
    rw [hmade]
    split
    · next written hwrite =>
      obtain ⟨hfile, loc, hloc, hdir, rfl⟩ := of_write hwrite
      exact .inr ⟨hfile, loc, hloc, hdir, rfl⟩
    · next fault _ => exact .inl ⟨fault, rfl⟩

/-- A save that succeeds would have succeeded with other bytes. -/
theorem save_congr {t : FileTree} {path : Text} {bytes : ByteArray}
    (h : (t.save path bytes).fault? = none) (bytes' : ByteArray) :
    (t.save path bytes').fault? = none := by
  rw [save] at h ⊢
  split at h
  · exact nomatch h
  · next made hmade =>
    split at h
    · next hwrite =>
      obtain ⟨u, hother⟩ := write_congr hwrite bytes'
      simp only [hother]
    · exact nomatch h

/-- **A save that succeeds** is a write at the location that its path leads to. -/
theorem wrote_of_save {t u : FileTree} {path : Text} {bytes : ByteArray}
    (h : t.save path bytes = ⟨u, none⟩) : meansDirectory path = false ∧
      ∃ loc, u.locate? path = some loc ∧ Wrote t loc bytes u := by
  obtain ⟨made, hway, ⟨fault, hfailed⟩ | ⟨hfile, loc, hloc, hdir, hsaved⟩⟩ :=
    t.save_cases path bytes
  · exact nomatch congrArg Outcome.fault? (h.symm.trans hfailed)
  · obtain rfl : u = made.put loc (.file bytes) := congrArg Outcome.tree (h.symm.trans hsaved)
    have hwrote := wrote_put bytes hdir
    refine ⟨hfile, loc, hwrote.locate? hloc, ?_⟩
    refine ⟨hwrote.start.trans hway.start, hwrote.file, fun k n hk hn => ?_, fun hn => ?_⟩
    · exact hwrote.others k n hk (hway.kept hn)
    · exact hdir (hway.kept hn)

/-! ## Texts -/

/-- Bytes are the text that they encode. -/
theorem fromUTF8?_eq_some_iff {bytes : ByteArray} {s : String} :
    String.fromUTF8? bytes = some s ↔ bytes = s.toUTF8 := by
  unfold String.fromUTF8?
  constructor
  · intro h
    split at h
    · rw [← Option.some.inj h]
      rfl
    · exact nomatch h
  · rintro rfl
    rw [String.toUTF8_eq_toByteArray, dif_pos s.isValidUTF8]
    rfl

/-- A path reads as a text if it reads as the bytes of the text. -/
theorem readText_eq_ok_iff {t : FileTree} {path text : Text} :
    t.readText path = .ok text ↔ t.read path = .ok (Text.toStr text).toUTF8 := by
  rw [readText, bind_eq_ok_iff]
  constructor
  · rintro ⟨bytes, hread, htext⟩
    cases hs : String.fromUTF8? bytes with
    | none => simp [hs] at htext
    | some s =>
      simp only [hs, Except.ok.injEq] at htext
      rw [hread, fromUTF8?_eq_some_iff.1 hs, ← htext, Text.toStr_ofString]
  · intro hread
    refine ⟨_, hread, ?_⟩
    rw [fromUTF8?_eq_some_iff.2 rfl]
    exact congrArg Except.ok (Text.ofString_toStr text)

/-- Paths that lead to one place read as one text. -/
theorem readText_congr {t : FileTree} {path other text : Text} (h : t.readText path = .ok text)
    (hsame : t.locate? other = t.locate? path) (hfile : meansDirectory other = false) :
    t.readText other = .ok text := by
  rw [readText_eq_ok_iff, read_eq_ok_iff] at h ⊢
  obtain ⟨-, loc, hloc, hnode⟩ := h
  exact ⟨hfile, loc, hsame.trans hloc, hnode⟩

end FileTree

end FramePatch
