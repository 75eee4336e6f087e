import MappedStorage.Capacity

/-!
What growing promises. One step covers any request, so growing takes one step or none (`grow_eq`): the new
capacity covers the request and the scaled capacity, stays within the addresses there are and comes in whole
granules.
-/

namespace MappedStorage.GrowthRule

variable {p : GrowthRule} {capacity requested : Nat}

theorem next_le_addressable {reached : Nat} (h : p.next capacity requested = .ok reached) :
    reached ≤ Word.addressable := by
  obtain ⟨rfl, bound⟩ := align_eq_ok_iff.mp h
  exact bound

/-- One step scales the capacity, and does so without a limit: where the product is not a word nothing is
reached. -/
theorem mul_factor_le_next {reached : Nat} (h : p.next capacity requested = .ok reached) :
    capacity * p.factor ≤ reached := by
  obtain ⟨rounded, bound⟩ := align_eq_ok_iff.mp h
  have limit := Word.addressable_lt_max
  have covers := p.le_roundUp (max requested (Word.saturatingMul capacity p.factor))
  have scaled : Word.saturatingMul capacity p.factor ≤ reached := by omega
  have unsaturated : min (capacity * p.factor) Word.max ≤ reached := scaled
  omega

theorem roundUp_mod_granule (p : GrowthRule) (len : Nat) : p.roundUp len % p.granule = 0 := by
  unfold roundUp
  split
  · assumption
  · have below := Nat.mod_lt len p.granule_pos
    have whole : len + (p.granule - len % p.granule) = p.granule * (len / p.granule + 1) := by
      have parts := Nat.div_add_mod len p.granule
      rw [Nat.mul_add, Nat.mul_one]
      omega
    rw [whole, Nat.mul_mod_right]

theorem align_mod_granule {len : Nat} (aligned : p.align len = .ok capacity) :
    capacity % p.granule = 0 := by
  obtain ⟨rfl, -⟩ := align_eq_ok_iff.mp aligned
  exact p.roundUp_mod_granule len

theorem climb_of_enough {g : Enlargement} (enough : requested ≤ g.capacity) :
    p.climb requested g = .ok g := by
  rw [climb, if_neg (Nat.not_lt.mpr enough)]

/-- The step that is taken is the last one. -/
theorem climb_of_short {g : Enlargement} (short : g.capacity < requested) :
    p.climb requested g = (p.next g.capacity requested).map fun reached => ⟨reached, g.steps + 1⟩ := by
  rw [climb, if_pos short]
  split <;> rename_i stepped <;> rw [stepped]
  · rfl
  · exact climb_of_enough (le_next stepped)

/-- Growing takes one step, or none where the request fits. -/
theorem grow_eq (p : GrowthRule) (capacity requested : Nat) : p.grow capacity requested =
    if requested ≤ capacity then .ok none
    else (p.next capacity requested).map fun reached => some ⟨reached, 1⟩ := by
  rw [grow]
  split
  · rfl
  · rename_i short
    rw [climb_of_short (Nat.lt_of_not_le short)]
    cases p.next capacity requested <;> rfl

/-- Nothing grows where the request fits, and only there. -/
theorem grow_eq_none_iff : p.grow capacity requested = .ok none ↔ requested ≤ capacity := by
  rw [grow_eq]
  split
  · simp [*]
  · cases p.next capacity requested <;> simp [*, Except.map]

/-- What is grown to is reached by one step. -/
theorem grow_eq_some {g : Enlargement} (h : p.grow capacity requested = .ok (some g)) :
    capacity < requested ∧ p.next capacity requested = .ok g.capacity := by
  rw [grow_eq] at h
  split at h
  · cases h
  · rename_i short
    cases stepped : p.next capacity requested with
    | error e =>
      rw [stepped] at h
      cases h
    | ok reached =>
      rw [stepped] at h
      cases h
      exact ⟨Nat.lt_of_not_le short, rfl⟩

/-- Growth covers a request that did not fit. -/
theorem grow_reaches {g : Enlargement} (h : p.grow capacity requested = .ok (some g)) :
    capacity < requested ∧ requested ≤ g.capacity ∧ g.capacity ≤ Word.addressable := by
  obtain ⟨short, stepped⟩ := grow_eq_some h
  exact ⟨short, le_next stepped, next_le_addressable stepped⟩

/-- Growth scales the capacity at least by the factor. -/
theorem mul_factor_le_of_grow {g : Enlargement} (h : p.grow capacity requested = .ok (some g)) :
    capacity * p.factor ≤ g.capacity :=
  mul_factor_le_next (grow_eq_some h).2

/-- Growth comes in whole granules. -/
theorem grow_mod_granule {g : Enlargement} (h : p.grow capacity requested = .ok (some g)) :
    g.capacity % p.granule = 0 :=
  align_mod_granule (grow_eq_some h).2

end MappedStorage.GrowthRule
