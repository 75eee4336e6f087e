import Mathlib.Order.Bounds.Defs
import MappedStorage.Proofs.Capacity
import MappedStorage.Proofs.MachineWords

/-!
Growing computed on machine words. Its arithmetic has no answer where a word wraps or the divisor is zero,
and its loop has none where it goes on for ever (`GrowthRule.GrowsOnWords`). It always has the answer of
`GrowthRule.grow` and no other (`growsOnWords_iff`), which is the least whole number of granules that covers
the request and the scaled capacity (`grow_exact`).
-/

namespace MappedStorage.GrowthRule

/-- Whether a length that was rounded up is addressable. -/
def limit (len rounded : Nat) : Except CapacityError Nat :=
  if rounded ≤ Word.addressable then .ok rounded else .error (.overflow len)

/-- A length rounded up on words. Only the last addition is checked for a sum that is no word. -/
def alignOnWords (p : GrowthRule) (len : Nat) : Option (Except CapacityError Nat) := do
  let rest ← Word.rem? len p.granule
  if rest = 0 then return limit len len
  let missing ← Word.sub? p.granule rest
  match Word.add? len missing with
  | none => return .error (.overflow len)
  | some rounded => return limit len rounded

/-- One step on words. -/
def nextOnWords (p : GrowthRule) (capacity requested : Nat) : Option (Except CapacityError Nat) :=
  p.alignOnWords (max requested (Word.saturatingMul capacity p.factor))

/-- The loop on words, from where it stands to what it comes to. There is a run only where it ends. -/
inductive ClimbsOnWords (p : GrowthRule) (requested : Nat) :
    Enlargement → Except CapacityError Enlargement → Prop
  | ends {g : Enlargement} (enough : requested ≤ g.capacity) : p.ClimbsOnWords requested g (.ok g)
  | fails {g : Enlargement} {e : CapacityError} (short : g.capacity < requested)
      (stepped : p.nextOnWords g.capacity requested = some (.error e)) :
      p.ClimbsOnWords requested g (.error e)
  | climbs {g : Enlargement} {capacity steps : Nat} {result : Except CapacityError Enlargement}
      (short : g.capacity < requested)
      (stepped : p.nextOnWords g.capacity requested = some (.ok capacity))
      (counted : Word.increment? g.steps = some steps)
      (rest : p.ClimbsOnWords requested ⟨capacity, steps⟩ result) : p.ClimbsOnWords requested g result

/-- What growing on words comes to: nothing where the request fits already, else what the loop does. -/
inductive GrowsOnWords (p : GrowthRule) (capacity requested : Nat) :
    Except CapacityError (Option Enlargement) → Prop
  | fits (enough : requested ≤ capacity) : p.GrowsOnWords capacity requested (.ok none)
  | climbs {result : Except CapacityError Enlargement} (short : capacity < requested)
      (climbed : p.ClimbsOnWords requested ⟨capacity, 0⟩ result) :
      p.GrowsOnWords capacity requested (result.map some)

variable (p : GrowthRule)

/-! ## On words as on numbers -/

theorem align_eq_limit (len : Nat) : p.align len = limit len (p.roundUp len) := rfl

/-- Rounding up subtracts from the granule what is less than it, and divides by the granule only. -/
theorem alignOnWords_eq (len : Nat) : p.alignOnWords len = some (p.align len) := by
  have below := Nat.mod_lt len p.granule_pos
  rw [alignOnWords, Word.rem?_eq_some p.granule_pos, align_eq_limit, roundUp, Option.bind_eq_bind,
    Option.bind_some]
  by_cases whole : len % p.granule = 0
  · rw [if_pos whole, if_pos whole]
    rfl
  · rw [if_neg whole, if_neg whole, Word.sub?_eq_some (Nat.le_of_lt below)]
    by_cases word : len + (p.granule - len % p.granule) ≤ Word.max
    · simp [Word.add?_eq_some word]
    · -- A sum that is no word is beyond the limit all the more.
      have beyond : Word.addressable < len + (p.granule - len % p.granule) :=
        Nat.lt_trans Word.addressable_lt_max (Nat.lt_of_not_le word)
      simp [Word.add?, word, limit, Nat.not_le.mpr beyond]

theorem nextOnWords_eq (capacity requested : Nat) :
    p.nextOnWords capacity requested = some (p.next capacity requested) :=
  p.alignOnWords_eq _

/-- The loop ends with its first step, since one step covers the request. -/
theorem climbsOnWords_iff {requested : Nat} {g : Enlargement} {result : Except CapacityError Enlargement}
    (room : g.steps < 0xFFFFFFFF) :
    p.ClimbsOnWords requested g result ↔ result = p.climb requested g := by
  constructor
  · intro climbed
    cases climbed with
    | ends enough => rw [climb_of_enough enough]
    | fails short stepped =>
      rw [nextOnWords_eq, Option.some.injEq] at stepped
      rw [climb_of_short short, stepped]
      rfl
    | climbs short stepped counted rest =>
      rw [nextOnWords_eq, Option.some.injEq] at stepped
      rw [Word.increment?_eq_some room, Option.some.injEq] at counted
      subst counted
      have covered := le_next stepped
      rw [climb_of_short short, stepped]
      cases rest with
      | ends => rfl
      | fails short | climbs short => exact absurd covered (Nat.not_le.mpr short)
  · rintro rfl
    rcases Nat.lt_or_ge g.capacity requested with short | enough
    · rw [climb_of_short short]
      rcases stepped : p.next g.capacity requested with e | capacity
      · exact .fails short (by rw [nextOnWords_eq, stepped])
      · exact .climbs short (by rw [nextOnWords_eq, stepped]) (Word.increment?_eq_some room)
          (.ends (le_next stepped))
    · rw [climb_of_enough enough]
      exact .ends enough

/-- Growing on words comes to an end, wraps nowhere and answers as growing does. -/
theorem growsOnWords_iff {capacity requested : Nat} {result : Except CapacityError (Option Enlargement)} :
    p.GrowsOnWords capacity requested result ↔ result = p.grow capacity requested := by
  have room : (⟨capacity, 0⟩ : Enlargement).steps < 0xFFFFFFFF := Nat.zero_lt_succ _
  rcases Nat.lt_or_ge capacity requested with short | enough
  · have grown : p.grow capacity requested = (p.climb requested ⟨capacity, 0⟩).map some := by
      rw [grow, if_neg (Nat.not_le.mpr short)]
      cases p.climb requested ⟨capacity, 0⟩ <;> rfl
    rw [grown]
    constructor
    · rintro (enough | ⟨-, climbed⟩)
      · exact absurd enough (Nat.not_le.mpr short)
      · rw [(p.climbsOnWords_iff room).mp climbed]
    · rintro rfl
      exact .climbs short ((p.climbsOnWords_iff room).mpr rfl)
  · rw [grow_eq_none_iff.mpr enough]
    constructor
    · rintro (- | ⟨short, -⟩)
      · rfl
      · exact absurd enough (Nat.not_le.mpr short)
    · rintro rfl
      exact .fits enough

/-! ## What is reached -/

/-- A length is rounded up to the next whole number of granules. -/
theorem roundUp_isLeast (len : Nat) : IsLeast {t | p.granule ∣ t ∧ len ≤ t} (p.roundUp len) := by
  refine ⟨⟨Nat.dvd_of_mod_eq_zero (p.roundUp_mod_granule len), p.le_roundUp len⟩, ?_⟩
  rintro t ⟨⟨count, rfl⟩, covers⟩
  unfold roundUp
  split
  · exact covers
  · rename_i between
    have parts := Nat.div_add_mod len p.granule
    have next : len / p.granule < count := by
      refine Nat.lt_of_not_le fun few => ?_
      have bound := Nat.mul_le_mul_left p.granule few
      omega
    have bound := Nat.mul_le_mul_left p.granule next
    rw [Nat.mul_succ] at bound
    omega

/-- Saturation changes the step only where it fails anyway. -/
theorem next_eq (capacity requested : Nat) : p.next capacity requested =
    if p.roundUp (max requested (capacity * p.factor)) ≤ Word.addressable then
      .ok (p.roundUp (max requested (capacity * p.factor)))
    else .error (.overflow (max requested (min (capacity * p.factor) Word.max))) := by
  have limit := Word.addressable_lt_max
  rw [next, align, Word.saturatingMul]
  by_cases word : capacity * p.factor ≤ Word.max
  · rw [Nat.min_eq_left word]
  · rw [Nat.min_eq_right (by omega)]
    have exact := p.le_roundUp (max requested (capacity * p.factor))
    have saturated := p.le_roundUp (max requested Word.max)
    rw [if_neg (by omega), if_neg (by omega)]

/-- Growing, which comes to one end on words and wraps nowhere, does nothing exactly where the request fits.
Elsewhere it takes one step, to the least whole number of granules that covers the request and the exact
scaled capacity, if that is addressable, and otherwise tells the larger of the request and the scaled capacity
as far as that is a word. -/
theorem grow_exact (capacity requested : Nat) :
    (∀ result, p.GrowsOnWords capacity requested result ↔ result = p.grow capacity requested) ∧
    (p.grow capacity requested = .ok none ↔ requested ≤ capacity) ∧
    (capacity < requested → ∃ least,
      IsLeast {t | p.granule ∣ t ∧ max requested (capacity * p.factor) ≤ t} least ∧
      p.grow capacity requested =
        if least ≤ Word.addressable then .ok (some ⟨least, 1⟩)
        else .error (.overflow (max requested (min (capacity * p.factor) Word.max)))) := by
  refine ⟨fun _ => p.growsOnWords_iff, grow_eq_none_iff, fun short => ?_⟩
  refine ⟨_, p.roundUp_isLeast _, ?_⟩
  rw [grow_eq, if_neg (Nat.not_le.mpr short), next_eq]
  split <;> rfl

end MappedStorage.GrowthRule
