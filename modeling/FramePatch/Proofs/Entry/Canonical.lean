import FramePatch.Proofs.Entry.Line
import FramePatch.Proofs.Literal

/-!
# The one form that is printed

Entries are read from lines of many forms and printed in one. What is printed reads back as the
entry, up to a comparand without a meaning, and an entry that was read has none; so reading,
printing and reading again gives what the first reading gave. The printed lines can also be told by
their looks alone: they are the canonical ones (`CanonicalLine`), and every canonical line is
printed for an entry (`CanonicalLine.exists_encode_eq`). `codec_roundTrip` puts the three together.
-/

namespace FramePatch

namespace Entry

/-- The lines of one form: a canonical literal, the name of a width and a canonical literal, and
after them perhaps one more canonical literal, with a colon between any two. -/
def CanonicalLine (line : Text) : Prop :=
  ∃ (address value rest : Text) (width : Width),
    Literal.Canonical address ∧ Literal.Canonical value ∧
      (rest = [] ∨ ∃ comparand, Literal.Canonical comparand ∧ rest = ':' :: comparand) ∧
      line = address ++ ':' :: width.token ++ ':' :: value ++ rest

theorem encode_eq (e : Entry) :
    e.encode = Literal.hex e.address ++ ':' :: e.width.token ++ ':' :: Literal.hex e.value ++
      if e.conditional then ':' :: Literal.hex e.comparand else [] := by
  rw [encode, toFields]
  cases e.conditional <;> simp [Text.join]

theorem canonicalLine_encode (e : Entry) : CanonicalLine e.encode := by
  refine ⟨_, _, _, e.width, Literal.canonical_hex _, Literal.canonical_hex _, ?_, encode_eq e⟩
  cases e.conditional with
  | false => exact .inl rfl
  | true => exact .inr ⟨_, Literal.canonical_hex _, rfl⟩

/-- Every canonical line is printed for an entry. -/
theorem CanonicalLine.exists_encode_eq {line : Text} (h : CanonicalLine line) :
    ∃ e : Entry, e.encode = line := by
  obtain ⟨a, v, rest, width, ha, hv, hrest, rfl⟩ := h
  obtain ⟨address, rfl⟩ := ha.exists_hex_eq
  obtain ⟨value, rfl⟩ := hv.exists_hex_eq
  rcases hrest with rfl | ⟨c, hc, rfl⟩
  · exact ⟨{ address, width, value }, encode_eq _⟩
  · obtain ⟨comparand, rfl⟩ := hc.exists_hex_eq
    exact ⟨{ address, width, value, conditional := true, comparand }, encode_eq _⟩

/-! ## Comparands without a meaning -/

theorem normal_eq (e : Entry) :
    e.normal = if e.conditional ∨ e.comparand = 0 then e else { e with comparand := 0 } := by
  obtain ⟨address, width, value, conditional, comparand⟩ := e
  cases conditional with
  | true => rfl
  | false => by_cases h : comparand = 0 <;> simp [normal, h]

/-- A comparand without a meaning is not printed. -/
theorem encode_normal (e : Entry) : e.normal.encode = e.encode := by
  rw [normal]
  split
  · rfl
  · next h => simp only [encode, toFields, h, Bool.false_eq_true, if_false]

/-! ## There and back -/

/-- **Reading and printing entries.**

* An entry reads back from its line as it is, if it is conditional or has the comparand 0; otherwise
  it reads back with the comparand 0.
* An entry that was read from a line, of whatever form, reads back from its own line as it is.
* A line is read and printed again without a change exactly if it is canonical. -/
theorem codec_roundTrip :
    (∀ e : Entry, decode? e.encode =
      some (if e.conditional ∨ e.comparand = 0 then e else { e with comparand := 0 })) ∧
    (∀ (line : Text) (e : Entry), decode? line = some e → decode? e.encode = some e) ∧
    ∀ line : Text, (∃ e, decode? line = some e ∧ e.encode = line) ↔ CanonicalLine line := by
  refine ⟨?_, ?_, ?_⟩
  · intro e
    rw [decode?_encode, normal_eq]
  · intro line e h
    rw [decode?_encode, normal_of_decode? h]
  · intro line
    constructor
    · rintro ⟨e, -, rfl⟩
      exact canonicalLine_encode e
    · intro h
      obtain ⟨e, rfl⟩ := h.exists_encode_eq
      exact ⟨e.normal, decode?_encode e, encode_normal e⟩

/-- A line with a blank, a sign, a decimal and an octal literal, an equals sign and a remark. -/
theorem codec_roundTrip_lenient :
    let line := Text.ofString " +16=word:010:7:a remark"
    let e : Entry := ⟨16, .word, 8, true, 7⟩
    decode? line = some e ∧ decode? e.encode = some e ∧
      e.encode = Text.ofString "0x00000010:word:0x00000008:0x00000007" := by
  intro line e
  have hread : decode? line = some e := by decide
  exact ⟨hread, codec_roundTrip.2.1 line e hread, by decide⟩

end Entry

end FramePatch
