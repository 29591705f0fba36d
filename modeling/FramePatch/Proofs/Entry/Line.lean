import FramePatch.Entry.Line
import FramePatch.Proofs.Text.Trimmed

/-!
# What entry lines look like

Facts about the printed line of an entry and about the entries that lines decode to.

- `normal_of_decode?`: a decoded entry carries no comparand without a meaning, so that it is found
  again in its own printed line.
- `mem_encode`, `exists_encode_eq_cons`: a printed line consists of letters, digits and colons, and
  starts with a digit.
-/

namespace FramePatch

namespace Entry

/-! ## Decoded entries -/

/-- Fields give no entry with a comparand that has no meaning. -/
theorem normal_of_ofFields? {fs : List Text} {e : Entry} (h : ofFields? fs = some e) :
    e.normal = e := by
  match fs, h with
  | a :: w :: v :: rest, h =>
    simp only [ofFields?, Option.bind_eq_bind, Option.bind_eq_some_iff] at h
    obtain ⟨address, -, value, -, width, -, h⟩ := h
    cases rest with
    | nil =>
      obtain rfl := Option.some.inj h
      rfl
    | cons c rest =>
      obtain ⟨comparand, -, rfl⟩ := Option.map_eq_some_iff.1 h
      rfl

/-- A line decodes to no entry with a comparand that has no meaning. -/
theorem normal_of_decode? {line : Text} {e : Entry} (h : decode? line = some e) : e.normal = e :=
  normal_of_ofFields? h

/-! ## Printed lines -/

/-- A printed line starts with the digit of its first literal. -/
theorem exists_encode_eq_cons (e : Entry) : ∃ rest, e.encode = '0' :: rest := ⟨_, rfl⟩

/-- A printed line consists of letters, digits and colons. -/
theorem mem_encode {e : Entry} {c : Char} (h : c ∈ e.encode) : c = ':' ∨ c.isAlphanum := by
  rcases Text.mem_join h with h | ⟨f, hf, hc⟩
  · exact .inl h
  · exact .inr (isAlphanum_of_mem_toFields hf hc)

/-- What is neither a colon nor a letter or digit is not in a printed line. -/
theorem notMem_encode {e : Entry} {c : Char} (hcolon : c ≠ ':') (hc : c.isAlphanum = false) :
    c ∉ e.encode := by
  intro h
  rcases mem_encode h with h | h
  · exact hcolon h
  · rw [hc] at h
    exact absurd h Bool.false_ne_true

/-- A printed line has no blank, so it is trimmed. -/
theorem trimmed_encode (e : Entry) : Text.Trimmed e.encode := by
  refine .of_forall fun c hc => ?_
  rcases mem_encode hc with rfl | hc
  · decide
  · exact Text.isBlank_of_isAlphanum hc

end Entry

end FramePatch
