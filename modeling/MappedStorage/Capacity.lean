import MappedStorage.Word

/-!
How a mapping grows. A growth rule multiplies the capacity by a fixed factor until a request
fits and rounds the result up to whole granules. `GrowthRule.le_next` says that one step
always covers its request, which is why `GrowthRule.grow` ends.
-/

namespace MappedStorage

/-- Why a capacity can not be computed, or a rule not be built. -/
inductive CapacityError where
  /-- The capacity asked for has no multiple of the granule within the address space. -/
  | overflow (requested : Nat)
  /-- A factor below two does not grow. -/
  | factor (given : Nat)
  /-- A granule of zero bytes has no multiples to round to. -/
  | granule
  deriving DecidableEq

/-- The text shown for a growth error. -/
def CapacityError.message : CapacityError → String
  | .overflow requested =>
    "requested capacity of " ++ toString requested ++ " bytes overflows the address space"
  | .factor given => "growth factor must be at least 2, got " ++ toString given
  | .granule => "growth granule must not be zero"

/-- A factor to grow by and a granule whose multiples capacities are. -/
structure GrowthRule where
  factor : Nat
  granule : Nat
  two_le_factor : 2 ≤ factor
  granule_pos : 0 < granule
  deriving DecidableEq

/-- What growing found: the new capacity and the steps it took to reach it. -/
structure Enlargement where
  capacity : Nat
  steps : Nat
  deriving DecidableEq

namespace GrowthRule

/-- Capacities double, to any number of bytes. -/
def doubling : GrowthRule := ⟨2, 1, by decide, by decide⟩

instance : Inhabited GrowthRule := ⟨doubling⟩

/-- The rule of a factor, with single bytes as granules. -/
def ofFactor (factor : Nat) : Except CapacityError GrowthRule :=
  if h : 2 ≤ factor then .ok ⟨factor, 1, h, by decide⟩ else .error (.factor factor)

/-- The same factor with another granule. -/
def inGranulesOf (p : GrowthRule) (granule : Nat) : Except CapacityError GrowthRule :=
  if h : 0 < granule then .ok { p with granule := granule, granule_pos := h } else .error .granule

/-- The least multiple of the granule that is at least `len`. -/
def roundUp (p : GrowthRule) (len : Nat) : Nat :=
  if len % p.granule = 0 then len else len + (p.granule - len % p.granule)

/-- A length rounded up to whole granules, if that is still addressable. -/
def align (p : GrowthRule) (len : Nat) : Except CapacityError Nat :=
  if p.roundUp len ≤ Word.addressable then .ok (p.roundUp len) else .error (.overflow len)

/-- The capacity after one step: the scaled capacity or the request, whichever is larger. -/
def next (p : GrowthRule) (capacity requested : Nat) : Except CapacityError Nat :=
  p.align (max requested (Word.saturatingMul capacity p.factor))

theorem le_roundUp (p : GrowthRule) (len : Nat) : len ≤ p.roundUp len := by
  unfold roundUp
  split <;> omega

theorem align_eq_ok_iff {p : GrowthRule} {len capacity : Nat} :
    p.align len = .ok capacity ↔ p.roundUp len = capacity ∧ capacity ≤ Word.addressable := by
  unfold align
  split <;> simp <;> grind

/-- One step covers the request. -/
theorem le_next {p : GrowthRule} {capacity requested reached : Nat}
    (h : p.next capacity requested = .ok reached) : requested ≤ reached := by
  obtain ⟨rfl, _⟩ := align_eq_ok_iff.mp h
  exact Nat.le_trans (Nat.le_max_left _ _) (p.le_roundUp _)

/-- Takes steps until the request fits, counting them. -/
def climb (p : GrowthRule) (requested : Nat) (g : Enlargement) : Except CapacityError Enlargement :=
  if g.capacity < requested then
    match h : p.next g.capacity requested with
    | .error e => .error e
    | .ok capacity => climb p requested ⟨capacity, g.steps + 1⟩
  else .ok g
termination_by requested - g.capacity
decreasing_by
  have := le_next h
  omega

/-- The growth that makes a request fit, or nothing where it fits already. -/
def grow (p : GrowthRule) (capacity requested : Nat) : Except CapacityError (Option Enlargement) :=
  if requested ≤ capacity then .ok none
  else match p.climb requested ⟨capacity, 0⟩ with
    | .error e => .error e
    | .ok g => .ok (some g)

end GrowthRule
end MappedStorage
