import MappedStorage.Word

/-!
Unsigned numbers in decimal: an optional plus sign and at least one ASCII digit, with any number
of leading zeros, as long as the value fits in a word.
-/

namespace MappedStorage.Numeral

/-- An ASCII digit. -/
def isDigit (c : Char) : Bool := '0' ≤ c && c ≤ '9'

/-- The number that digits denote in decimal. -/
def value (digits : List Char) : Nat :=
  digits.foldl (fun n c => n * 10 + (c.toNat - '0'.toNat)) 0

/-- The word that digits denote, if they are digits and there is at least one. -/
def ofDigits? (digits : List Char) : Option Nat :=
  if digits ≠ [] ∧ digits.all isDigit ∧ value digits ≤ Word.max then some (value digits) else none

/-- The word that a numeral denotes. -/
def word? : List Char → Option Nat
  | '+' :: digits => ofDigits? digits
  | digits => ofDigits? digits

end MappedStorage.Numeral
