import FramePatch.Entry.Basic
import FramePatch.Literal

/-!
# Entries as lines

The line of an entry is `ADDRESS:WIDTH:VALUE` or `ADDRESS:WIDTH:VALUE:COMPARAND`. Printing uses
one form only, with eight hexadecimal digits for every word. Reading is lenient in three ways: the
first `=` of the line counts as a colon, one colon at the end is not counted, and anything after
the comparand is ignored.

`decode?_encode`: an entry reads back from its line, up to a comparand that has no meaning.
-/

namespace FramePatch.Entry

/-! ## Reading -/

/-- The fields of a line: the parts between its colons, after the two leniences on separators. -/
def fields (line : Text) : List Text :=
  let colons := Text.replaceFirst '=' ':' line
  Text.pieces ':' ((Text.stripEnd? ':' colons).getD colons)

/-- The entry of a list of fields. -/
def ofFields? : List Text → Option Entry
  | a :: w :: v :: rest => do
    let address ← Literal.read? a
    let value ← Literal.read? v
    let width ← Width.ofToken? w
    let e : Entry := { address, width, value }
    match rest with
    | [] => some e
    | c :: _ => (Literal.read? c).map e.onlyIf
  | _ => none

/-- The entry that a line describes, if it describes one. -/
def decode? (line : Text) : Option Entry := ofFields? (fields line)

/-! ## Printing -/

/-- The fields of an entry's line. -/
def toFields (e : Entry) : List Text :=
  [Literal.hex e.address, e.width.token, Literal.hex e.value] ++
    if e.conditional then [Literal.hex e.comparand] else []

/-- The line of an entry. -/
def encode (e : Entry) : Text := Text.join ':' e.toFields

/-! ## Reading what was printed -/

/-- The entry with the comparand that has no meaning taken away. -/
def normal (e : Entry) : Entry := if e.conditional then e else { e with comparand := 0 }

theorem isAlphanum_of_mem_toFields {e : Entry} {f : Text} {c : Char} (hf : f ∈ e.toFields)
    (hc : c ∈ f) : c.isAlphanum := by
  have token : ∀ w : Width, w.token.all Char.isAlphanum := by
    intro w
    cases w <;> rfl
  simp only [toFields, List.mem_append, List.mem_cons, List.not_mem_nil, or_false] at hf
  rcases hf with (rfl | rfl | rfl) | hf
  · exact Literal.isAlphanum_of_mem_hex hc
  · exact List.all_eq_true.1 (token e.width) c hc
  · exact Literal.isAlphanum_of_mem_hex hc
  · split at hf
    · rw [List.mem_singleton.1 hf] at hc
      exact Literal.isAlphanum_of_mem_hex hc
    · exact absurd hf List.not_mem_nil

theorem nil_notMem_toFields (e : Entry) : [] ∉ e.toFields := by
  simp only [toFields, List.mem_append, List.mem_cons, List.not_mem_nil, or_false, not_or]
  refine ⟨⟨List.cons_ne_nil _ _ ∘ Eq.symm, e.width.token_ne_nil.symm,
    List.cons_ne_nil _ _ ∘ Eq.symm⟩, ?_⟩
  split
  · exact fun h => List.cons_ne_nil _ _ (List.mem_singleton.1 h).symm
  · exact List.not_mem_nil

/-- The fields of a printed line are the fields that were printed. -/
theorem fields_encode (e : Entry) : fields e.encode = e.toFields := by
  have colon : ∀ f ∈ e.toFields, ':' ∉ f := fun f hf hc =>
    absurd (isAlphanum_of_mem_toFields hf hc) (by decide)
  have cut : Text.pieces ':' e.encode = e.toFields :=
    Text.pieces_join (List.cons_ne_nil _ _) colon
  have equals : '=' ∉ e.encode := by
    intro h
    rcases Text.mem_join h with h | ⟨f, hf, hc⟩
    · exact absurd h (by decide)
    · exact absurd (isAlphanum_of_mem_toFields hf hc) (by decide)
  have last : Text.stripEnd? ':' e.encode = none := by
    cases h : Text.stripEnd? ':' e.encode with
    | none => rfl
    | some r =>
      -- a colon at the end would leave an empty field
      rw [Text.stripEnd?_eq_some_iff.1 h, Text.pieces_append_sep] at cut
      exact absurd (cut ▸ List.mem_append_right _ List.mem_cons_self) (nil_notMem_toFields e)
  simp [fields, Text.replaceFirst_of_not_mem equals, last, cut]

/-- An entry reads back from its line. -/
theorem decode?_encode (e : Entry) : decode? e.encode = some e.normal := by
  obtain ⟨address, width, value, conditional, comparand⟩ := e
  rw [decode?, fields_encode]
  cases conditional <;> simp [toFields, ofFields?, normal, onlyIf]

end FramePatch.Entry
