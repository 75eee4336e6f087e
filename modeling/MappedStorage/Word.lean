/-!
Sizes and offsets. They are natural numbers, and the two limits of the machine are explicit: a
size fits in a 64-bit word, and an object or a file is at most `Word.addressable` bytes long.
The operations here say what happens at the limit instead of wrapping.
-/

namespace MappedStorage.Word

/-- The largest 64-bit word. -/
def max : Nat := 0xFFFFFFFFFFFFFFFF

/-- The largest size of an object in memory and of a file. -/
def addressable : Nat := 0x7FFFFFFFFFFFFFFF

/-- The sum, if it is a word. -/
def add? (a b : Nat) : Option Nat :=
  if a + b ≤ max then some (a + b) else none

/-- The product, if it is a word. -/
def mul? (a b : Nat) : Option Nat :=
  if a * b ≤ max then some (a * b) else none

/-- The product, or the largest word where the product is larger. -/
def saturatingMul (a b : Nat) : Nat := min (a * b) max

theorem add?_eq_some_iff {a b c : Nat} : add? a b = some c ↔ a + b = c ∧ c ≤ max := by
  unfold add?
  split <;> grind

theorem mul?_eq_some_iff {a b c : Nat} : mul? a b = some c ↔ a * b = c ∧ c ≤ max := by
  unfold mul?
  split <;> grind

theorem addressable_lt_max : addressable < max := by decide

end MappedStorage.Word
