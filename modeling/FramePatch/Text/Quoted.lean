import FramePatch.Text.Unprintable
import FramePatch.Text.Basic

/-!
# Quoted texts

The form in which a message shows a text that a user gave: between double quotes, on one line,
with nothing invisible in it. A quote and a backslash get a backslash before them, four control
characters have a letter, and any other character without a printed form is written by its number
in hexadecimal, as in `\u{7f}`. A single quote stands as it is.
-/

namespace FramePatch.Text

/-- How one character is written between the quotes. -/
def quoteChar (c : Char) : Text :=
  match c with
  | '\x00' => ['\\', '0']
  | '\t' => ['\\', 't']
  | '\r' => ['\\', 'r']
  | '\n' => ['\\', 'n']
  | '"' => ['\\', '"']
  | '\\' => ['\\', '\\']
  | _ =>
    if isUnprintable c then ['\\', 'u', '\x7b'] ++ Nat.toDigits 16 c.toNat ++ ['\x7d'] else [c]

/-- The text between double quotes, with what is special in it escaped. -/
def quote (t : Text) : Text := '"' :: t.flatMap quoteChar ++ ['"']

end FramePatch.Text
