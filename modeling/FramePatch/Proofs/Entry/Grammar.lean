import FramePatch.Proofs.Entry.Fields

/-!
# The grammar of entry lines

Which lines are read, and as what, said without the steps of reading: a line is read as an entry if
it has one of the four forms of `Describes` for it, and not otherwise. The forms are taken from left
to right by `fieldsFrom_eq_cons_iff`, a literal or the name of a width at a time, and put together
again by `fieldsFrom_append`. That a line is of one form only, in one way only, needs no argument
about forms: a line is read as one entry.
-/

namespace FramePatch.Entry

/-! ## Forms -/

/-- The line has the form of a description of the entry. Address, value and comparand are literals;
the separators are colons, one of which may be written as an equals sign. -/
inductive Describes : Text → Entry → Prop
  | plain {a v : Text} {s₁ s₂ : Char} {address value : UInt32} {width : Width}
      (ha : Literal.read? a = some address) (hv : Literal.read? v = some value)
      (hs : Separators 1 [s₁, s₂]) :
      Describes (a ++ s₁ :: (width.token ++ s₂ :: v)) { address, width, value }
  /-- A separator at the end is not the start of a comparand. -/
  | closed {a v : Text} {s₁ s₂ s₃ : Char} {address value : UInt32} {width : Width}
      (ha : Literal.read? a = some address) (hv : Literal.read? v = some value)
      (hs : Separators 1 [s₁, s₂, s₃]) :
      Describes (a ++ s₁ :: (width.token ++ s₂ :: (v ++ [s₃]))) { address, width, value }
  | conditional {a v c : Text} {s₁ s₂ s₃ : Char} {address value comparand : UInt32} {width : Width}
      (ha : Literal.read? a = some address) (hv : Literal.read? v = some value)
      (hc : Literal.read? c = some comparand) (hs : Separators 1 [s₁, s₂, s₃]) :
      Describes (a ++ s₁ :: (width.token ++ s₂ :: (v ++ s₃ :: c)))
        { address, width, value, conditional := true, comparand }
  /-- Any text may come after a comparand and a separator. -/
  | remarked {a v c remark : Text} {s₁ s₂ s₃ s₄ : Char} {address value comparand : UInt32}
      {width : Width} (ha : Literal.read? a = some address) (hv : Literal.read? v = some value)
      (hc : Literal.read? c = some comparand) (hs : Separators 1 [s₁, s₂, s₃, s₄]) :
      Describes (a ++ s₁ :: (width.token ++ s₂ :: (v ++ s₃ :: (c ++ s₄ :: remark))))
        { address, width, value, conditional := true, comparand }

/-! ## Fields -/

/-- **The fields of an entry**: an address, a width, a value, and perhaps a comparand, whatever
comes after it. -/
theorem ofFields?_eq_some_iff {fs : List Text} {e : Entry} :
    ofFields? fs = some e ↔
      ∃ a v rest address value width, fs = a :: Width.token width :: v :: rest ∧
        Literal.read? a = some address ∧ Literal.read? v = some value ∧
        (rest = [] ∧ e = { address, width, value } ∨
          ∃ c others comparand, rest = c :: others ∧ Literal.read? c = some comparand ∧
            e = { address, width, value, conditional := true, comparand }) := by
  constructor
  · intro h
    match fs, h with
    | a :: t :: v :: rest, h =>
      simp only [ofFields?, Option.bind_eq_bind, Option.bind_eq_some_iff] at h
      obtain ⟨address, ha, value, hv, width, ht, h⟩ := h
      obtain rfl := Width.ofToken?_eq_some_iff.1 ht
      refine ⟨a, v, rest, address, value, width, rfl, ha, hv, ?_⟩
      cases rest with
      | nil => exact .inl ⟨rfl, (Option.some.inj h).symm⟩
      | cons c others =>
        obtain ⟨comparand, hc, rfl⟩ := Option.map_eq_some_iff.1 h
        exact .inr ⟨c, others, comparand, rfl, hc, rfl⟩
  · rintro ⟨a, v, rest, address, value, width, rfl, ha, hv, hrest⟩
    rcases hrest with ⟨rfl, rfl⟩ | ⟨c, others, comparand, rfl, hc, rfl⟩
    · simp [ofFields?, ha, hv]
    · simp [ofFields?, ha, hv, hc, onlyIf]

/-- The fields of a line that starts with an address and a width. -/
theorem fieldsFrom_head {a : Text} {address : UInt32} (ha : Literal.read? a = some address)
    {s₁ s₂ : Char} {ss : List Char} (hs : Separators 1 (s₁ :: s₂ :: ss)) (width : Width) :
    ∃ lenient, Separators lenient.toNat ss ∧ ∀ t : Text,
      fieldsFrom true (a ++ s₁ :: (width.token ++ s₂ :: t)) =
        a :: width.token :: fieldsFrom lenient t := by
  obtain ⟨l₁, hs₁, hs⟩ := (@separators_cons_iff true _ _).1 hs
  obtain ⟨l₂, hs₂, hs⟩ := separators_cons_iff.1 hs
  refine ⟨l₂, hs, fun t => ?_⟩
  rw [fieldsFrom_append (unbroken_of_read? ha) hs₁,
    fieldsFrom_append ((unbroken_token width).of_lenient l₁) hs₂]

/-! ## Lines -/

/-- Every line of the four forms is read as the entry that it describes. -/
theorem decode?_of_describes {line : Text} {e : Entry} (h : Describes line e) :
    decode? line = some e := by
  have hfield {lenient : Bool} {t : Text} {w : UInt32} (h : Literal.read? t = some w) :
      fieldsFrom lenient t = [t] :=
    fieldsFrom_of_unbroken (Literal.ne_nil_of_read? h) ((unbroken_of_read? h).of_lenient lenient)
  rw [decode?_eq_ofFields?, ofFields?_eq_some_iff]
  cases h with
  | @plain a v s₁ s₂ address value width ha hv hs =>
    obtain ⟨l, -, hhead⟩ := fieldsFrom_head ha hs width
    rw [hhead, hfield hv]
    exact ⟨a, v, [], address, value, width, rfl, ha, hv, .inl ⟨rfl, rfl⟩⟩
  | @closed a v s₁ s₂ s₃ address value width ha hv hs =>
    obtain ⟨l, hs, hhead⟩ := fieldsFrom_head ha hs width
    obtain ⟨l₃, hs₃, -⟩ := separators_cons_iff.1 hs
    rw [hhead, fieldsFrom_append ((unbroken_of_read? hv).of_lenient l) hs₃]
    exact ⟨a, v, [], address, value, width, rfl, ha, hv, .inl ⟨rfl, rfl⟩⟩
  | @conditional a v c s₁ s₂ s₃ address value comparand width ha hv hc hs =>
    obtain ⟨l, hs, hhead⟩ := fieldsFrom_head ha hs width
    obtain ⟨l₃, hs₃, -⟩ := separators_cons_iff.1 hs
    rw [hhead, fieldsFrom_append ((unbroken_of_read? hv).of_lenient l) hs₃, hfield hc]
    exact ⟨a, v, [c], address, value, width, rfl, ha, hv, .inr ⟨c, [], comparand, rfl, hc, rfl⟩⟩
  | @remarked a v c remark s₁ s₂ s₃ s₄ address value comparand width ha hv hc hs =>
    obtain ⟨l, hs, hhead⟩ := fieldsFrom_head ha hs width
    obtain ⟨l₃, hs₃, hs⟩ := separators_cons_iff.1 hs
    obtain ⟨l₄, hs₄, -⟩ := separators_cons_iff.1 hs
    rw [hhead, fieldsFrom_append ((unbroken_of_read? hv).of_lenient l) hs₃,
      fieldsFrom_append ((unbroken_of_read? hc).of_lenient l₃) hs₄]
    exact ⟨a, v, _, address, value, width, rfl, ha, hv, .inr ⟨c, _, comparand, rfl, hc, rfl⟩⟩

/-- Every line that is read has one of the four forms. -/
theorem describes_of_decode? {line : Text} {e : Entry} (h : decode? line = some e) :
    Describes line e := by
  rw [decode?_eq_ofFields?, ofFields?_eq_some_iff] at h
  obtain ⟨a, v, others, address, value, width, hfields, ha, hv, hothers⟩ := h
  -- neither the address nor the width is the last field
  obtain ⟨-, h⟩ | ⟨s₁, l₁, t₁, rfl, hs₁, hfields⟩ :=
    (fieldsFrom_eq_cons_iff (Literal.ne_nil_of_read? ha) (unbroken_of_read? ha)).1 hfields
  · exact nomatch h
  obtain ⟨-, h⟩ | ⟨s₂, l₂, t₂, rfl, hs₂, hfields⟩ :=
    (fieldsFrom_eq_cons_iff width.token_ne_nil (unbroken_token width)).1 hfields.symm
  · exact nomatch h
  have htwo {ss : List Char} (h : Separators l₂.toNat ss) : Separators 1 (s₁ :: s₂ :: ss) :=
    separators_cons_iff.2 ⟨l₁, hs₁, separators_cons_iff.2 ⟨l₂, hs₂, h⟩⟩
  obtain ⟨rfl, rfl⟩ | ⟨s₃, l₃, t₃, rfl, hs₃, rfl⟩ :=
    (fieldsFrom_eq_cons_iff (Literal.ne_nil_of_read? hv) (unbroken_of_read? hv)).1 hfields.symm
  · -- the value is the last field
    obtain ⟨-, rfl⟩ | ⟨_, _, _, h, -⟩ := hothers
    · exact .plain ha hv (htwo (separators_nil _))
    · exact nomatch h
  have hthree {ss : List Char} (h : Separators l₃.toNat ss) :
      Separators 1 (s₁ :: s₂ :: s₃ :: ss) :=
    htwo (separators_cons_iff.2 ⟨l₃, hs₃, h⟩)
  obtain ⟨hnone, rfl⟩ | ⟨c, more, comparand, hmore, hc, rfl⟩ := hothers
  · -- a separator follows the value, and no field follows the separator
    obtain rfl := fieldsFrom_eq_nil_iff.1 hnone
    exact .closed ha hv (hthree (separators_nil _))
  obtain ⟨rfl, -⟩ | ⟨s₄, l₄, remark, rfl, hs₄, -⟩ :=
    (fieldsFrom_eq_cons_iff (Literal.ne_nil_of_read? hc) (unbroken_of_read? hc)).1 hmore
  · exact .conditional ha hv hc (hthree (separators_nil _))
  · exact .remarked ha hv hc (hthree (separators_cons_iff.2 ⟨l₄, hs₄, separators_nil _⟩))

/-- **Reading accepts the grammar** and nothing else: a line is read as an entry exactly if it has
the form of a description of it. No line describes two entries, in whichever ways it may be taken
apart. -/
theorem decode?_eq_some_iff_describes (line : Text) :
    (∀ e, decode? line = some e ↔ Describes line e) ∧
      ∀ e f, Describes line e → Describes line f → e = f := by
  refine ⟨fun e => ⟨describes_of_decode?, decode?_of_describes⟩, ?_⟩
  intro e f he hf
  have h : some e = some f := (decode?_of_describes he).symm.trans (decode?_of_describes hf)
  exact Option.some.inj h

/-- Of two equals signs only the first one is taken for a colon. -/
example : decode? (Text.ofString "0x1=byte=0x2") = none := by decide

end FramePatch.Entry
