import FramePatch.Ini.Format
import FramePatch.Proofs.Text.Trimmed
import Mathlib.Data.List.Forall2

/-!
# The layout of an ini text

What of a text does not matter for the lines that count: blanks around a line, so also a carriage
return at its end, and lines of nothing but blanks. `Relaid` says that lines differ from others in
no more than that, and `significantLines_of_relaid` that the same lines count then.

Line ends are converted by `withReturns` and `withoutReturns`; either way, the lines of the one text
are those of the other, or have a carriage return at the end in addition.
-/

namespace FramePatch.Ini

/-! ## Lines laid out in another way -/

/-- The second lines are the first ones with blanks put around them, and blank lines put between
them. -/
inductive Relaid : List Text → List Text → Prop where
  | nil : Relaid [] []
  | line {before after line : Text} {lines more : List Text}
      (hbefore : ∀ c ∈ before, Text.isBlank c) (hafter : ∀ c ∈ after, Text.isBlank c)
      (rest : Relaid lines more) : Relaid (line :: lines) ((before ++ line ++ after) :: more)
  | blankLine {line : Text} {lines more : List Text} (hblank : ∀ c ∈ line, Text.isBlank c)
      (rest : Relaid lines more) : Relaid lines (line :: more)

/-- A line may stay as it is. -/
theorem Relaid.same {lines more : List Text} (h : Relaid lines more) (line : Text) :
    Relaid (line :: lines) (line :: more) := by
  simpa using Relaid.line (List.forall_mem_nil _) (List.forall_mem_nil _) h

/-- The text `other` has the lines of `text`, laid out in another way. -/
def RelaidText (text other : Text) : Prop :=
  Relaid (Text.pieces '\n' text) (Text.pieces '\n' other)

theorem trimmedLines_of_relaid {lines more : List Text} (h : Relaid lines more) :
    (more.map Text.trim).filter (· ≠ []) = (lines.map Text.trim).filter (· ≠ []) := by
  induction h with
  | nil => rfl
  | line hbefore hafter _ ih =>
    simp only [List.map_cons, List.filter_cons, Text.trim_pad hbefore hafter, ih]
  | blankLine hblank _ ih =>
    rw [List.map_cons, Text.trim_of_blank hblank]
    exact ih

/-- **The same lines count** in a text that is laid out in another way. -/
theorem significantLines_of_relaid {text other : Text} (h : RelaidText text other) :
    significantLines other = significantLines text :=
  trimmedLines_of_relaid h

/-! ## Line ends -/

/-- The text with a carriage return before every newline. -/
def withReturns : Text → Text
  | [] => []
  | c :: rest => if c = '\n' then '\r' :: '\n' :: withReturns rest else c :: withReturns rest

/-- The text without the carriage returns that stand before a newline. -/
def withoutReturns : Text → Text
  | '\r' :: '\n' :: rest => '\n' :: withoutReturns rest
  | c :: rest => c :: withoutReturns rest
  | [] => []

/-- The second line is the first one, or has a carriage return at the end in addition. -/
def MayEndInReturn (line other : Text) : Prop := other = line ∨ other = line ++ ['\r']

theorem relaid_of_mayEndInReturn {lines more : List Text}
    (h : List.Forall₂ MayEndInReturn lines more) : Relaid lines more := by
  induction h with
  | nil => exact .nil
  | cons hline _ ih =>
    rcases hline with rfl | rfl
    · exact ih.same _
    · exact .line (List.forall_mem_nil _) (List.forall_mem_singleton.2 rfl) ih

/-- A character put in front of the first lines leaves it open whether they end in a return. -/
theorem forall₂_modifyHead {lines more : List Text} (c : Char)
    (h : List.Forall₂ MayEndInReturn lines more) :
    List.Forall₂ MayEndInReturn (lines.modifyHead (c :: ·)) (more.modifyHead (c :: ·)) := by
  cases h with
  | nil => exact .nil
  | cons hline hrest =>
    refine .cons ?_ hrest
    rcases hline with rfl | rfl
    · exact .inl rfl
    · exact .inr rfl

theorem forall₂_pieces_withReturns (text : Text) :
    List.Forall₂ MayEndInReturn (Text.pieces '\n' text) (Text.pieces '\n' (withReturns text)) := by
  induction text with
  | nil => exact .cons (.inl rfl) .nil
  | cons c rest ih =>
    rw [withReturns]
    split
    · next hc =>
      subst hc
      exact .cons (.inr rfl) ih
    · next hc =>
      simp only [Text.pieces, if_neg hc]
      exact forall₂_modifyHead c ih

theorem forall₂_pieces_withoutReturns (text : Text) :
    List.Forall₂ MayEndInReturn (Text.pieces '\n' (withoutReturns text))
      (Text.pieces '\n' text) := by
  fun_induction withoutReturns text with
  | case1 rest ih => exact .cons (.inr rfl) ih
  | case2 c rest _ ih =>
    by_cases hc : c = '\n'
    · simp only [Text.pieces, if_pos hc]
      exact .cons (.inl rfl) ih
    · simp only [Text.pieces, if_neg hc]
      exact forall₂_modifyHead c ih
  | case3 => exact .cons (.inl rfl) .nil

/-- Carriage returns before newlines may be put in. -/
theorem significantLines_withReturns (text : Text) :
    significantLines (withReturns text) = significantLines text :=
  significantLines_of_relaid (relaid_of_mayEndInReturn (forall₂_pieces_withReturns text))

/-- Carriage returns before newlines may be taken out. -/
theorem significantLines_withoutReturns (text : Text) :
    significantLines (withoutReturns text) = significantLines text :=
  (significantLines_of_relaid
    (relaid_of_mayEndInReturn (forall₂_pieces_withoutReturns text))).symm

end FramePatch.Ini
