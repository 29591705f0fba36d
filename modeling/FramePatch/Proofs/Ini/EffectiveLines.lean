import FramePatch.Ini.Row
import FramePatch.Proofs.Ini.WellFormed

/-!
# Effective lines

What the effective lines of a section are known to be, and which lines are effective as they are.

- `notMem_of_mem_lines`: no effective line has a comment in it.
- `WellFormed.trimmed_of_mem_lines`: in a well-formed store, effective lines are trimmed like the
  raw ones. A comment is cut off together with the blanks before it.
- `lines_setLines_self`, `lines_setLines_other`: lines without comments that are put into a section
  are its effective lines, and other sections keep theirs.
-/

namespace FramePatch.Ini

/-- What is effective of a line is the line itself, or what stands before its comment. -/
theorem of_effectiveLine? {line e : Text} (h : effectiveLine? line = some e) :
    ('#' ∉ line ∧ e = line) ∨
      ∃ before after, line = before ++ '#' :: after ∧ '#' ∉ before ∧ e = Text.trimRight before := by
  rw [effectiveLine?.eq_def] at h
  split at h
  · exact nomatch h
  · split at h
    · next before after hcut =>
      obtain ⟨hline, hbefore⟩ := Text.cut?_eq_some_iff.1 hcut
      exact .inr ⟨before, after, hline, hbefore, (Option.some.inj h).symm⟩
    · next hcut => exact .inl ⟨Text.cut?_eq_none_iff.1 hcut, (Option.some.inj h).symm⟩

/-- What is effective of a line has no comment. -/
theorem notMem_of_effectiveLine? {line e : Text} (h : effectiveLine? line = some e) : '#' ∉ e := by
  rcases of_effectiveLine? h with ⟨hline, rfl⟩ | ⟨before, after, -, hbefore, rfl⟩
  · exact hline
  · exact fun hm => hbefore (Text.mem_of_mem_trimRight hm)

/-- What is effective of a clean line is trimmed, and still on one line. -/
theorem trimmed_of_effectiveLine? {line e : Text} (hline : CleanLine line)
    (h : effectiveLine? line = some e) : Text.Trimmed e ∧ '\n' ∉ e := by
  rcases of_effectiveLine? h with ⟨-, rfl⟩ | ⟨before, after, rfl, -, rfl⟩
  · exact ⟨hline.trimmed, hline.oneLine⟩
  · have hhead : before.head?.all (!Text.isBlank ·) := by
      cases before with
      | nil => rfl
      | cons c rest => exact hline.trimmed.head
    refine ⟨Text.trimmed_trimRight hhead, fun hm => hline.oneLine ?_⟩
    exact List.mem_append_left _ (Text.mem_of_mem_trimRight hm)

/-- A line without a comment is effective as it is. -/
theorem effectiveLine?_of_notMem {line : Text} (h : '#' ∉ line) :
    effectiveLine? line = some line := by
  rw [effectiveLine?, Text.cut?_eq_none_iff.2 h]
  rintro rest rfl
  exact h List.mem_cons_self

namespace Store

theorem notMem_of_mem_lines {store : Store} {name line : Text} (h : line ∈ store.lines name) :
    '#' ∉ line := by
  obtain ⟨raw, -, heffective⟩ := List.mem_filterMap.1 h
  exact notMem_of_effectiveLine? heffective

/-- Effective lines of a well-formed store are trimmed, and lines. -/
theorem WellFormed.trimmed_of_mem_lines {store : Store} (h : store.WellFormed) {name line : Text}
    (hline : line ∈ store.lines name) : Text.Trimmed line ∧ '\n' ∉ line := by
  obtain ⟨raw, hraw, heffective⟩ := List.mem_filterMap.1 hline
  obtain ⟨s, hs, hmem⟩ := exists_of_mem_rawLines hraw
  exact trimmed_of_effectiveLine? (h.lines s hs raw hmem).toCleanLine heffective

/-- Lines without comments that are put into a section are its effective lines. -/
theorem lines_setLines_self (store : Store) (name : Text) {lines : List Text}
    (h : ∀ line ∈ lines, '#' ∉ line) : (store.setLines name lines).lines name = lines := by
  rw [Store.lines, setLines, rawLines_edit_self store _ rfl]
  induction lines with
  | nil => rfl
  | cons line rest ih =>
    rw [List.filterMap_cons, effectiveLine?_of_notMem (h line List.mem_cons_self)]
    exact congrArg (line :: ·) (ih fun l hl => h l (List.mem_cons_of_mem line hl))

/-- The other sections keep their effective lines. -/
theorem lines_setLines_other (store : Store) {name asked : Text} (lines : List Text)
    (h : Text.fold asked ≠ Text.fold name) :
    (store.setLines name lines).lines asked = store.lines asked := by
  rw [Store.lines, rawLines, setLines, find?_edit_other store _ h]
  rfl

end Store

end FramePatch.Ini
