import FramePatch.Text.Basic

/-!
# Entries

An entry is one guest write: an address, a width, a value, and perhaps a condition on what the
address holds. Addresses, values and comparands are words of 32 bits whatever the width; the
width decides how much of a word takes part, and `Width.truncate` is that part.
-/

namespace FramePatch

/-- How many bytes of guest memory an entry covers. -/
inductive Width where
  | byte
  | word
  | dword
deriving DecidableEq, Repr

namespace Width

/-- The number of bytes covered. -/
def bytes : Width → Nat
  | byte => 1
  | word => 2
  | dword => 4

/-- The part of a word that an access of this width sees: its low bits. -/
def truncate : Width → UInt32 → UInt32
  | byte, v => v.toUInt8.toUInt32
  | word, v => v.toUInt16.toUInt32
  | dword, v => v

/-- The name of a width in patch lines. -/
def token : Width → Text
  | byte => ['b', 'y', 't', 'e']
  | word => ['w', 'o', 'r', 'd']
  | dword => ['d', 'w', 'o', 'r', 'd']

/-- The width of a name; case matters. -/
def ofToken? (t : Text) : Option Width :=
  [byte, word, dword].find? fun w => w.token = t

theorem token_ne_nil (w : Width) : w.token ≠ [] := by
  cases w <;> decide

theorem ofToken?_eq_some_iff {t : Text} {w : Width} : ofToken? t = some w ↔ t = w.token := by
  constructor
  · intro h
    have := List.find?_some h
    simp_all
  · rintro rfl
    cases w <;> rfl

@[simp] theorem ofToken?_token (w : Width) : ofToken? w.token = some w :=
  ofToken?_eq_some_iff.2 rfl

@[simp] theorem truncate_truncate (w : Width) (v : UInt32) :
    w.truncate (w.truncate v) = w.truncate v := by
  apply UInt32.toNat_inj.1
  cases w <;> simp [truncate]

end Width

/-- One guest write. The comparand has a meaning only for a conditional entry: the write then
happens if memory holds the comparand, both taken at the entry's width. -/
structure Entry where
  address : UInt32
  width : Width
  value : UInt32
  conditional : Bool := false
  comparand : UInt32 := 0
deriving DecidableEq, Repr

namespace Entry

/-- The entry, to take place only where memory holds `comparand`. -/
def onlyIf (e : Entry) (comparand : UInt32) : Entry :=
  { e with conditional := true, comparand := comparand }

end Entry

end FramePatch
