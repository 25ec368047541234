import SqlSelect.Text.Blank
import SqlSelect.Text.Extending
import SqlSelect.Text.Unprintable

/-! Text between double quotes, for a reader of logs.

What cannot be seen is written by its code point, and so is what would merge with the
character before it. -/
namespace SqlSelect.Text

/-- A code point in hexadecimal between braces. -/
def byCodePoint (c : Char) : List Char :=
  ['\\', 'u', '\x7b'] ++ Nat.toDigits 16 c.toNat ++ ['\x7d']

def escapedChar (c : Char) : List Char :=
  match c with
  | '\x00' => ['\\', '0']
  | '\t' => ['\\', 't']
  | '\n' => ['\\', 'n']
  | '\r' => ['\\', 'r']
  | '\\' => ['\\', '\\']
  | '"' => ['\\', '"']
  | c => if inRanges extending c.toNat || inRanges unprintable c.toNat then byCodePoint c else [c]

def escaped (s : String) : List Char := '"' :: (s.toList.flatMap escapedChar ++ ['"'])

end SqlSelect.Text
