import Mathlib.Data.Nat.Bitwise
import MappedStorage.Word

/-!
Operations on machine words that answer only where the exact result is a word. What is computed with them
has wrapped nowhere and divided by no zero.
-/

namespace MappedStorage.Word

/-- The difference, if it is a word. -/
def sub? (a b : Nat) : Option Nat :=
  if b ≤ a then some (a - b) else none

/-- The remainder, if the divisor is not zero. -/
def rem? (a b : Nat) : Option Nat :=
  if b = 0 then none else some (a % b)

/-- A count one higher, if 32 bits hold it. -/
def increment? (n : Nat) : Option Nat :=
  if n < 0xFFFFFFFF then some (n + 1) else none

/-- The word with every bit flipped. -/
def complement (a : Nat) : Nat := max - a

theorem sub?_eq_some {a b : Nat} (h : b ≤ a) : sub? a b = some (a - b) := if_pos h

theorem add?_eq_some {a b : Nat} (h : a + b ≤ max) : add? a b = some (a + b) := if_pos h

theorem rem?_eq_some {a b : Nat} (h : 0 < b) : rem? a b = some (a % b) := if_neg (by omega)

theorem increment?_eq_some {n : Nat} (h : n < 0xFFFFFFFF) : increment? n = some (n + 1) := if_pos h

/-- Clearing the low bits of a word rounds it down to a multiple of a power of two. -/
theorem and_complement_pred_two_pow {a : Nat} (word : a ≤ max) (k : Nat) :
    a &&& complement (2 ^ k - 1) = a - a % 2 ^ k := by
  have room : a < 2 ^ 64 := by
    unfold max at word
    omega
  have whole : a - a % 2 ^ k = 2 ^ k * (a / 2 ^ k) := by
    have parts := Nat.div_add_mod a (2 ^ k)
    omega
  rw [whole]
  obtain small | large := Nat.lt_or_ge (2 ^ k - 1) (2 ^ 64)
  · have mask : complement (2 ^ k - 1) = 2 ^ 64 - ((2 ^ k - 1) + 1) := by
      unfold complement max
      omega
    rw [mask]
    refine Nat.eq_of_testBit_eq fun i => ?_
    rw [Nat.testBit_and, Nat.testBit_two_pow_sub_succ small, Nat.testBit_two_pow_sub_one,
      Nat.testBit_two_pow_mul, Nat.testBit_div_two_pow]
    by_cases high : k ≤ i
    · rw [Nat.sub_add_cancel high]
      by_cases inside : i < 64
      · simp [high, inside, Nat.not_lt.mpr high]
      · have clear : a.testBit i = false :=
          Nat.testBit_lt_two_pow (Nat.lt_of_lt_of_le room (Nat.pow_le_pow_right (by decide) (by omega)))
        simp [clear]
    · simp [high, Nat.lt_of_not_le high]
  · -- The mask has no bit left, and the word lies below the power.
    have nothing : complement (2 ^ k - 1) = 0 := by
      unfold complement max
      omega
    rw [nothing, Nat.and_zero, Nat.div_eq_of_lt (by omega), Nat.mul_zero]

end MappedStorage.Word
