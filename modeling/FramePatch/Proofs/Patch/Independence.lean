import FramePatch.Proofs.Patch.Writes

/-!
# Patches that keep apart

An entry has a *footprint*: the bytes from its address on, as many as its width, counted round the
end of memory. It writes nowhere else (`byte_apply_of_not_covers`), and whether it takes place
depends on nothing else (`takesPlace_congr`), since the comparand is looked for where the write
would go. So two entries whose footprints do not meet may change places (`apply_comm`), conditions
included, and with them whole runs of entries (`applyEntries_comm`).

The entries of one patch may overlap and wait for each other's writes as they like; their order is
never changed. Between patches nothing is shared if the entries of the one keep apart from those of
the other. Then the order of the patches does not matter (`applyAll_perm`).
-/

namespace FramePatch

/-! ## Footprints -/

namespace Entry

/-- Whether an address is among the bytes that an entry reads and writes. -/
def Covers (e : Entry) (a : UInt32) : Prop := (a - e.address).toNat < e.width.bytes

/-- No byte is covered by both entries. -/
def Apart (e f : Entry) : Prop := ∀ a, e.Covers a → ¬f.Covers a

theorem Apart.symm {e f : Entry} (h : e.Apart f) : f.Apart e :=
  fun a hf he => h a he hf

/-- Footprints are apart exactly if neither starts inside the other. -/
theorem apart_iff {e f : Entry} :
    e.Apart f ↔ e.width.bytes ≤ (f.address - e.address).toNat ∧
      f.width.bytes ≤ (e.address - f.address).toNat := by
  have hwidth : ∀ w : Width, 0 < w.bytes ∧ w.bytes ≤ 4 := by
    intro w
    cases w <;> decide
  obtain ⟨he, he'⟩ := hwidth e.width
  obtain ⟨hf, hf'⟩ := hwidth f.width
  constructor
  · intro h
    have hstart : ∀ g : Entry, (g.address - g.address).toNat = 0 := by simp
    constructor
    · by_contra hin
      refine h f.address (Nat.not_le.1 hin) ?_
      rw [Covers, hstart]
      exact hf
    · by_contra hin
      refine h e.address ?_ (Nat.not_le.1 hin)
      rw [Covers, hstart]
      exact he
  · -- a common byte is less than eight bytes behind both starts, so one start lies in the other
    rintro ⟨hfe, hef⟩ a hea hfa
    simp only [Covers, UInt32.toNat_sub] at hea hfa hfe hef
    have := a.toNat_lt
    have := e.address.toNat_lt
    have := f.address.toNat_lt
    omega

instance (e f : Entry) : Decidable (e.Apart f) := decidable_of_iff _ apart_iff.symm

/-! ## One entry -/

/-- An entry on a memory of bytes: if it takes place, its write is made. -/
theorem apply_eq (e : Entry) (m : ByteMemory) :
    e.apply m = if e.TakesPlace m then e.toWrite.perform m else m := by
  rw [apply, toWrite, GuestWrite.perform, GuestMemory.write_truncate]
  by_cases h : e.TakesPlace m
  · rw [if_pos h, if_pos ((e.holds_iff m).2 h)]
  · rw [if_neg h, if_neg (mt (e.holds_iff m).1 h)]

/-- **What an entry writes** is in its footprint. -/
theorem byte_apply_of_not_covers {e : Entry} {a : UInt32} (h : ¬e.Covers a) (m : ByteMemory) :
    (e.apply m).byte a = m.byte a := by
  have hnone : e.toWrite.byteAt? a = none := by
    rw [GuestWrite.byteAt?_eq]
    exact if_neg h
  rw [apply_eq]
  split
  · rw [ByteMemory.perform_eq]
    exact congrArg (·.getD (m.byte a)) hnone
  · rfl

/-- **What an entry reads** is in its footprint. -/
theorem takesPlace_congr {e : Entry} {m n : ByteMemory}
    (h : ∀ a, e.Covers a → m.byte a = n.byte a) : e.TakesPlace m ↔ e.TakesPlace n := by
  have hload : m.load e.address e.width.bytes = n.load e.address e.width.bytes := by
    refine List.map_congr_left fun i hi => h _ ?_
    have hi : i < e.width.bytes := List.mem_range.1 hi
    have hword : i < UInt32.size := Nat.lt_trans hi (by cases e.width <;> decide)
    have hoffset : e.address + UInt32.ofNat i - e.address = UInt32.ofNat i := by
      rw [UInt32.add_comm, UInt32.add_sub_cancel]
    rw [Covers, hoffset, UInt32.toNat_ofNat_of_lt' hword]
    exact hi
  rw [TakesPlace, TakesPlace, hload]

/-- An entry cannot tell whether one that keeps apart from it was there before. -/
theorem takesPlace_apply {e f : Entry} (h : e.Apart f) (m : ByteMemory) :
    e.TakesPlace (f.apply m) ↔ e.TakesPlace m :=
  takesPlace_congr fun a ha => byte_apply_of_not_covers (h a ha) m

end Entry

/-- Writes that cover no common byte may change places. -/
theorem GuestWrite.perform_comm {w v : GuestWrite} (h : ∀ a, w.Covers a → ¬v.Covers a)
    (m : ByteMemory) : w.perform (v.perform m) = v.perform (w.perform m) := by
  simp only [ByteMemory.perform_eq]
  congr 1
  funext a
  rw [byteAt?_eq, byteAt?_eq]
  by_cases hw : w.Covers a
  · rw [if_neg (h a hw)]
    rfl
  · rw [if_neg hw]
    rfl

/-- **Entries that keep apart** may change places. -/
theorem Entry.apply_comm {e f : Entry} (h : e.Apart f) (m : ByteMemory) :
    e.apply (f.apply m) = f.apply (e.apply m) := by
  have he := takesPlace_apply h m
  have hf := takesPlace_apply h.symm m
  rw [e.apply_eq (f.apply m), f.apply_eq (e.apply m), if_congr he rfl rfl, if_congr hf rfl rfl]
  rw [e.apply_eq m, f.apply_eq m]
  -- neither decision is changed by the other entry, so only two writes have to change places
  by_cases htake : e.TakesPlace m <;> by_cases hftake : f.TakesPlace m <;>
    simp only [htake, hftake, if_true, if_false]
  exact GuestWrite.perform_comm (w := e.toWrite) (v := f.toWrite) h m

/-! ## Patches -/

namespace Patch

/-- An entry may be made before or after entries that all keep apart from it. -/
theorem apply_applyEntries {e : Entry} {fs : List Entry} (h : ∀ f ∈ fs, e.Apart f)
    (m : ByteMemory) : e.apply (applyEntries fs m) = applyEntries fs (e.apply m) := by
  induction fs generalizing m with
  | nil => rfl
  | cons f rest ih =>
    show e.apply (applyEntries rest (f.apply m)) = applyEntries rest (f.apply (e.apply m))
    rw [ih (fun g hg => h g (List.mem_cons_of_mem f hg)), e.apply_comm (h f List.mem_cons_self)]

/-- **Runs of entries** may change places, if those of the one keep apart from those of the
other. -/
theorem applyEntries_comm {es fs : List Entry} (h : ∀ e ∈ es, ∀ f ∈ fs, e.Apart f)
    (m : ByteMemory) :
    applyEntries es (applyEntries fs m) = applyEntries fs (applyEntries es m) := by
  induction es generalizing m with
  | nil => rfl
  | cons e rest ih =>
    show applyEntries rest (e.apply (applyEntries fs m)) =
      applyEntries fs (applyEntries rest (e.apply m))
    rw [apply_applyEntries (h e List.mem_cons_self), ih fun g hg => h g (List.mem_cons_of_mem e hg)]

/-- No byte is covered both by an entry of the one patch and by an entry of the other. -/
def Apart (p q : Patch) : Prop := ∀ e ∈ p.entries, ∀ f ∈ q.entries, e.Apart f

instance (p q : Patch) : Decidable (p.Apart q) :=
  inferInstanceAs (Decidable (∀ e ∈ p.entries, ∀ f ∈ q.entries, e.Apart f))

/-- **The order of patches does not matter**, if any two different ones that are enabled keep apart.
The entries of one patch, conditional or not, may overlap and depend on each other, and patches that
are not enabled may overlap anything. -/
theorem applyAll_perm {ps qs : List Patch} (hperm : ps.Perm qs)
    (hapart : ∀ p ∈ ps, ∀ q ∈ ps, p.enabled → q.enabled → p ≠ q → p.Apart q) (m : ByteMemory) :
    applyAll ps m = applyAll qs m := by
  refine (hperm.filter _).foldl_eq' (fun p hp q hq n => ?_) m
  obtain ⟨hp, hpe⟩ := List.mem_filter.1 hp
  obtain ⟨hq, hqe⟩ := List.mem_filter.1 hq
  by_cases hpq : p = q
  · rw [hpq]
  · exact applyEntries_comm (hapart q hq p hp hqe hpe (Ne.symm hpq)) n

/-- The first patch runs on over the end of memory and meets a comparand of its own, which it then
destroys; the second one finds its comparand in memory; the third one would get between them, but is
off. -/
def neighbours : List Patch :=
  [{ name := ['A'], enabled := true,
     entries := [⟨0xFFFFFFFE, .dword, 0x11223344, false, 0⟩, ⟨0, .byte, 0x55, true, 0x33⟩,
       ⟨0xFFFFFFFF, .word, 0, true, 0x2255⟩] },
   { name := ['B'], enabled := true,
     entries := [⟨2, .word, 0x6677, true, 0⟩, ⟨3, .byte, 0x88, true, 0x77⟩] },
   { name := ['C'], entries := [⟨0, .dword, 0, false, 0⟩] }]

theorem applyAll_perm_neighbours :
    let zero : ByteMemory := { byte := fun _ => 0, isRam := fun _ => true, isCode := fun _ => true }
    neighbours.Perm neighbours.reverse ∧
      (∀ p ∈ neighbours, ∀ q ∈ neighbours, p.enabled → q.enabled → p ≠ q → p.Apart q) ∧
      applyAll neighbours zero = applyAll neighbours.reverse zero ∧
      (applyAll neighbours.reverse zero).load 0xFFFFFFFE 6 = [0x11, 0, 0, 0x44, 0x66, 0x88] := by
  intro zero
  have hperm : neighbours.Perm neighbours.reverse := (List.reverse_perm neighbours).symm
  have hapart : ∀ p ∈ neighbours, ∀ q ∈ neighbours,
      p.enabled → q.enabled → p ≠ q → p.Apart q := by
    decide
  exact ⟨hperm, hapart, applyAll_perm hperm hapart zero, by decide⟩

end Patch

end FramePatch
