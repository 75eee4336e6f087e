import MappedStorage.Text.Unprintable

/-!
Text in double quotes, as error messages show it: quotes, backslashes and the common controls
have short escapes, every other unprintable character is written by its code point, and all else
stands for itself.
-/

namespace MappedStorage.Quoted

/-- A number in lowercase hexadecimal digits, without padding. -/
def hex (n : Nat) : List Char := Nat.toDigits 16 n

/-- How a character stands between quotes. -/
def escape (c : Char) : List Char :=
  if c = '\x00' then ['\\', '0']
  else if c = '\t' then ['\\', 't']
  else if c = '\r' then ['\\', 'r']
  else if c = '\n' then ['\\', 'n']
  else if c = '"' then ['\\', '"']
  else if c = '\\' then ['\\', '\\']
  else if Unprintable.isUnprintable c then ['\\', 'u', '\x7b'] ++ hex c.toNat ++ ['\x7d']
  else [c]

/-- A text in double quotes. -/
def quote (text : String) : String :=
  String.ofList ('"' :: (text.toList.flatMap escape ++ ['"']))

end MappedStorage.Quoted
