/-
  File:      ComponentContainer/Text/Quoted.lean
  Subject:   Texts in quotation marks, for people to read.

  * `quoted` -- a text between quotation marks: the mark, the backslash, the usual controls and
    NUL get a backslash, every character of `escaped` is written by its code point, and all else
    stands for itself.
-/
import ComponentContainer.Text.Escaped

namespace ComponentContainer.Text

/-- The digits of a number to base sixteen, in small letters and without leading zeros. -/
def hexDigits (n : Nat) : List Char := Nat.toDigits 16 n

/-- One character between quotation marks. -/
def quotedChar (c : Char) : List Char :=
  if c = '"' then ['\\', '"']
  else if c = '\\' then ['\\', '\\']
  else if c = '\n' then ['\\', 'n']
  else if c = '\r' then ['\\', 'r']
  else if c = '\t' then ['\\', 't']
  else if c = '\x00' then ['\\', '0']
  else if 0x20 ≤ c.toNat && c.toNat < 0x7F then [c]
  else if escaped.holds c then
    ['\\', 'u', '\x7b'] ++ hexDigits c.toNat ++ ['\x7d']
  else [c]

/-- A text between quotation marks. -/
def quoted (s : String) : String :=
  String.ofList ('"' :: s.toList.flatMap quotedChar ++ ['"'])

end ComponentContainer.Text
