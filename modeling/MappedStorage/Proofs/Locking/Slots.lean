import MappedStorage.Proofs.Locking.Run
import MappedStorage.Word

/-!
The lock slots of a shared index. The table counts the holders that share a slot and names the one
that has it alone, while each holder keeps bits of its own. Whatever the operation, what becomes of
a slot is one of four things (`SlotLocks.Turn`), and the two records agree in every reachable state
(`LockHolders.SlotsExact`): a counter is never taken below what it counts.
-/

namespace MappedStorage

/-- What a holder has of a slot. -/
structure SlotHold where
  shared : Bool := false
  exclusive : Bool := false
  deriving DecidableEq

/-- How often the hold counts among the shared ones. -/
def SlotHold.share (a : SlotHold) : Nat := if a.shared then 1 else 0

/-- What a holder has of each slot. -/
def LockHolder.hold (h : LockHolder) (i : Fin slotCount) : SlotHold :=
  ⟨getElem h.sharedSlots i.val i.isLt, getElem h.exclusiveSlots i.val i.isLt⟩

/-- The locks of a slot. -/
def FileLocks.slot (l : FileLocks) (i : Fin slotCount) : SlotLocks := getElem l.slots i.val i.isLt

theorem FileLocks.slot_congr {l l' : FileLocks} (same : l'.slots = l.slots) (i : Fin slotCount) :
    l'.slot i = l.slot i := by rw [slot, slot, same]

namespace SlotLocks

open FileLocks (heldByOther without heldByOther_iff without_eq_some_iff)

/-- The locks of a slot when an owner passes from one hold to another. -/
inductive Turn (s : SlotLocks) (me : Owner) (a : SlotHold) : SlotHold → SlotLocks → Prop
  | stays : Turn s me a a s
  | shared (free : heldByOther s.exclusive me = false) :
      Turn s me a { a with shared := true } { s with shared := s.shared + (1 - a.share) }
  | taken (free : heldByOther s.exclusive me = false) (few : s.shared ≤ a.share) :
      Turn s me a { a with exclusive := true } { s with exclusive := some me }
  | freed : Turn s me a {} ⟨s.shared - a.share, without s.exclusive me⟩

variable {s s' : SlotLocks} {me o : Owner} {a b : SlotHold}

/-- The counter follows the bit. -/
theorem Turn.shared_add (turn : s.Turn me a b s') (counted : a.share ≤ s.shared) :
    s'.shared + a.share = s.shared + b.share := by
  cases turn with
  | stays => rfl
  | shared free =>
    have few : a.share ≤ 1 := by
      rw [SlotHold.share]
      split <;> omega
    show s.shared + (1 - a.share) + a.share = s.shared + 1
    omega
  | taken free few => rfl
  | freed => exact Nat.sub_add_cancel counted

theorem Turn.exclusive_iff (turn : s.Turn me a b s')
    (named : s.exclusive = some me ↔ a.exclusive = true) :
    s'.exclusive = some me ↔ b.exclusive = true := by
  cases turn with
  | stays => exact named
  | shared free => exact named
  | taken free few => exact iff_of_true rfl rfl
  | freed => exact iff_of_false (fun left => (without_eq_some_iff.mp left).2 rfl) Bool.false_ne_true

/-- Nobody loses a slot, or is given one, by what another owner does. -/
theorem Turn.exclusive_other_iff (turn : s.Turn me a b s') (other : o ≠ me) :
    s'.exclusive = some o ↔ s.exclusive = some o := by
  cases turn with
  | stays => rfl
  | shared free => rfl
  | taken free few =>
    refine iff_of_false (fun named => other (Option.some.inj named).symm) fun named => ?_
    exact Bool.false_ne_true (free.symm.trans (heldByOther_iff.mpr ⟨o, other, named⟩))
  | freed => simp [without_eq_some_iff, other]

/-- A slot is taken only where nobody else shares it. -/
theorem Turn.few_of_exclusive (turn : s.Turn me a b s') (taken : b.exclusive = true) :
    a.exclusive = true ∨ s.shared ≤ a.share := by
  cases turn with
  | stays => exact .inl taken
  | shared free => exact .inl taken
  | taken free few => exact .inr few
  | freed => cases taken

/-- A slot is shared only where nobody else has it alone. -/
theorem Turn.free_of_shared (turn : s.Turn me a b s') (shares : b.shared = true) :
    a.shared = true ∨ ∀ o, s.exclusive = some o → o = me := by
  cases turn with
  | stays => exact .inl shares
  | shared free =>
    refine .inr fun o named => ?_
    by_contra other
    exact Bool.false_ne_true (free.symm.trans (heldByOther_iff.mpr ⟨o, other, named⟩))
  | taken free few => exact .inl shares
  | freed => cases shares

end SlotLocks

/-- Each slot of a path has turned for a holder, or stayed. -/
structure LockHolder.SlotsTurn (h : LockHolder) (t : LockTable) (h' : LockHolder) (t' : LockTable) :
    Prop where
  path : h'.path = h.path
  owner : h'.owner = h.owner
  turn : ∃ l', t.Sets h.path.key l' t' ∧
    ∀ i : Fin slotCount, ((t.locks h.path.key).slot i).Turn h.owner (h.hold i) (h'.hold i) (l'.slot i)

/-- What becomes of the holders and the table when one of them lets go of some slots. -/
structure LockHolders.SlotsFreed (s : LockHolders) (name : String) (h : LockHolder)
    (named : Fin slotCount → Prop) (s' : LockHolders) : Prop where
  others : ∀ other, other ≠ name → s'.find? other = s.find? other
  elsewhere : ∀ key, key ≠ h.path.key → s'.state.locks key = s.state.locks key
  own : ∃ h', s'.find? name = some h' ∧ h'.path = h.path ∧ h'.owner = h.owner ∧
    h'.level = h.level ∧ (∀ i, named i → h'.hold i = {}) ∧ ∀ i, ¬ named i → h'.hold i = h.hold i
  levels : (s.state.locks h.path.key).SameLevels (s'.state.locks h.path.key)
  unnamed : ∀ i : Fin slotCount, ¬ named i →
    (s'.state.locks h.path.key).slot i = (s.state.locks h.path.key).slot i
  /-- The holder is taken out of the count, and out of the name. -/
  shared : ∀ i : Fin slotCount, named i →
    ((s'.state.locks h.path.key).slot i).shared + (h.hold i).share =
      ((s.state.locks h.path.key).slot i).shared
  exclusive : ∀ (i : Fin slotCount) o, named i →
    (((s'.state.locks h.path.key).slot i).exclusive = some o ↔
      ((s.state.locks h.path.key).slot i).exclusive = some o ∧ o ≠ h.owner)

namespace LockHolder

open FileLocks (heldByOther without)

variable {h h' : LockHolder} {t t' : LockTable} {offset n : Nat} {op : SlotLockOp}
  {result : Except ProviderError Unit} {i : Fin slotCount}

/-! ## Ranges -/

theorem inRange_iff {j : Nat} : inRange offset n j = true ↔ offset ≤ j ∧ j < offset + n := by
  simp [inRange]

theorem getElem_onRange {α : Type} (slots : Vector α slotCount) (value : Fin slotCount → α) :
    getElem (onRange offset n slots value) i.val i.isLt =
      if inRange offset n i then value i else getElem slots i.val i.isLt := by
  simp [onRange]

theorem anySlot_eq_false_iff {cond : Fin slotCount → Bool} :
    anySlot offset n cond = false ↔ ∀ i : Fin slotCount, inRange offset n i = true → cond i = false := by
  simp [anySlot, List.any_eq_false]

/-- A range is refused where its end is not a word or lies past the last slot. -/
theorem out_of_range_iff : (n = 0 ∨ slotCount < offset + n) ↔
    ¬ ∃ stop, Word.add? offset n = some stop ∧ 0 < n ∧ stop ≤ slotCount := by
  have small : slotCount ≤ Word.max := by decide
  simp only [Word.add?_eq_some_iff]
  constructor
  · rintro (rfl | past) ⟨stop, ⟨rfl, -⟩, some, inside⟩
    · exact Nat.lt_irrefl 0 some
    · exact absurd past (Nat.not_lt.mpr inside)
  · intro none
    by_contra inside
    exact none ⟨offset + n, ⟨rfl, by omega⟩, by omega, by omega⟩

theorem lockSlots_range_iff :
    h.lockSlots offset n op t = (.error (.slotRange offset n slotCount), h, t) ↔
      ¬ ∃ stop, Word.add? offset n = some stop ∧ 0 < n ∧ stop ≤ slotCount := by
  rw [← out_of_range_iff, lockSlots]
  split
  · rename_i outside
    exact iff_of_true rfl outside
  · rename_i inside
    refine iff_of_false (fun refused => ?_) inside
    have result := congrArg (·.1) refused
    cases op with
    | unlockShared | unlockExclusive => cases result
    | lockShared | lockExclusive =>
      simp only at result
      split at result <;> cases result

/-! ## Turns -/

theorem hold_forgetSlots :
    (h.forgetSlots offset n).hold i = if inRange offset n i then {} else h.hold i := by
  simp only [hold, forgetSlots, getElem_onRange]
  split <;> rfl

theorem slot_freeSlots (l : FileLocks) : (h.freeSlots offset n l).slot i =
    if inRange offset n i then
      ⟨(l.slot i).shared - (h.hold i).share, without (l.slot i).exclusive h.owner⟩
    else l.slot i :=
  getElem_onRange ..

theorem slotsTurn_of_slots {l' : FileLocks} (path : h'.path = h.path) (owner : h'.owner = h.owner)
    (holds : ∀ i, h'.hold i = h.hold i) (sets : t.Sets h.path.key l' t')
    (same : l'.slots = (t.locks h.path.key).slots) : h.SlotsTurn t h' t' := by
  refine ⟨path, owner, l', sets, fun i => ?_⟩
  rw [holds, FileLocks.slot_congr same]
  exact .stays

theorem forgetSlots_turn (h : LockHolder) (t : LockTable) (offset n : Nat) :
    h.SlotsTurn t (h.forgetSlots offset n)
      (t.settle h.path.key (h.freeSlots offset n (t.locks h.path.key))) := by
  refine ⟨rfl, rfl, _, LockTable.sets_settle .., fun i => ?_⟩
  rw [hold_forgetSlots, slot_freeSlots]
  split
  · exact .freed
  · exact .stays

theorem lockSlots_slotsTurn (locked : h.lockSlots offset n op t = (result, h', t')) :
    h.SlotsTurn t h' t' := by
  rw [lockSlots] at locked
  split at locked
  · cases locked
    exact slotsTurn_of_slots rfl rfl (fun _ => rfl) (.refl ..) rfl
  · cases op with
    | unlockShared | unlockExclusive =>
      cases locked
      exact h.forgetSlots_turn t offset n
    | lockShared =>
      simp only at locked
      split at locked
      · cases locked
        exact slotsTurn_of_slots rfl rfl (fun _ => rfl) (LockTable.sets_touch ..) rfl
      · rename_i free
        cases locked
        refine ⟨rfl, rfl, _, LockTable.sets_settle .., fun i => ?_⟩
        simp only [hold, FileLocks.slot, getElem_onRange]
        split
        · rename_i inside
          exact .shared (anySlot_eq_false_iff.mp (Bool.eq_false_iff.mpr free) i inside)
        · exact .stays
    | lockExclusive =>
      simp only at locked
      split at locked
      · cases locked
        exact slotsTurn_of_slots rfl rfl (fun _ => rfl) (LockTable.sets_touch ..) rfl
      · rename_i free
        cases locked
        refine ⟨rfl, rfl, _, LockTable.sets_settle .., fun i => ?_⟩
        simp only [hold, FileLocks.slot, getElem_onRange]
        split
        · rename_i inside
          have free := anySlot_eq_false_iff.mp (Bool.eq_false_iff.mpr free) i inside
          rw [Bool.or_eq_false_iff] at free
          exact .taken free.1 (Nat.not_lt.mp (of_decide_eq_false free.2))
        · exact .stays

theorem slots_grant (l : FileLocks) (me : Owner) (level : LockLevel) :
    (l.grant me level).slots = l.slots := by
  cases level <;> rfl

theorem lock_slotsTurn {level : LockLevel} (locked : h.lock level t = (result, h', t')) :
    h.SlotsTurn t h' t' := by
  cases lock_correct locked with
  | met enough => exact slotsTurn_of_slots rfl rfl (fun _ => rfl) (.refl ..) rfl
  | refused above hindered sets => exact slotsTurn_of_slots rfl rfl (fun _ => rfl) sets rfl
  | granted above free few sets =>
    exact slotsTurn_of_slots rfl rfl (fun _ => rfl) sets (slots_grant ..)
  | waiting sought above free many sets =>
    exact slotsTurn_of_slots rfl rfl (fun _ => rfl) sets (slots_grant ..)

/-- A lower level leaves the slots as they are. -/
theorem unlock_slots {level : LockLevel} (unlocked : h.unlock level t = (h', t')) :
    h'.path = h.path ∧ h'.owner = h.owner ∧ (∀ i, h'.hold i = h.hold i) ∧
      ∃ l', t.Sets h.path.key l' t' ∧ l'.slots = (t.locks h.path.key).slots := by
  rw [unlock] at unlocked
  split at unlocked
  · cases unlocked
    exact ⟨rfl, rfl, fun _ => rfl, _, .refl .., rfl⟩
  · cases unlocked
    refine ⟨rfl, rfl, fun _ => rfl, _, LockTable.sets_settle .., ?_⟩
    split <;> split <;> rfl

theorem hold_of_any_eq_false (none : (h.sharedSlots.any id || h.exclusiveSlots.any id) = false)
    (i : Fin slotCount) : h.hold i = {} := by
  simp only [Bool.or_eq_false_iff, Vector.any_eq_false, id] at none
  rw [hold]
  congr 1
  · exact Bool.eq_false_iff.mpr (none.1 i i.isLt)
  · exact Bool.eq_false_iff.mpr (none.2 i i.isLt)

/-- Whoever lets go of everything holds no slot afterwards. -/
theorem release_slotsTurn (h : LockHolder) (t : LockTable) :
    h.SlotsTurn t (h.release t).1 (h.release t).2 ∧ ∀ i, (h.release t).1.hold i = {} := by
  rcases freed : h.unlockAllSlots t with ⟨h₁, t₁⟩
  rcases unlocked : h₁.unlock .none t₁ with ⟨h₂, t₂⟩
  have released : h.release t = (h₂, t₂) := by
    rw [release, freed]
    exact unlocked
  obtain ⟨⟨path, owner, l₁, sets, turn⟩, gone⟩ :
      h.SlotsTurn t h₁ t₁ ∧ ∀ i, h₁.hold i = {} := by
    rw [unlockAllSlots] at freed
    split at freed
    · cases freed
      refine ⟨h.forgetSlots_turn t 0 slotCount, fun i => ?_⟩
      rw [hold_forgetSlots, if_pos (inRange_iff.mpr (by omega))]
    · rename_i none
      cases freed
      exact ⟨slotsTurn_of_slots rfl rfl (fun _ => rfl) (.refl ..) rfl,
        hold_of_any_eq_false (Bool.eq_false_iff.mpr none)⟩
  obtain ⟨path', owner', holds, l', sets', same⟩ := unlock_slots unlocked
  rw [path] at sets' same
  rw [released]
  refine ⟨⟨path'.trans path, owner'.trans owner, l', sets.trans sets', fun i => ?_⟩, fun i => ?_⟩
  · rw [holds, FileLocks.slot_congr same, sets.here]
    exact turn i
  · exact (holds i).trans (gone i)

theorem serve_slotsTurn (h : LockHolder) (request : LockRequest) (t : LockTable) :
    h.SlotsTurn t (h.serve request t).2.1 (h.serve request t).2.2 := by
  cases request with
  | lock level => exact lock_slotsTurn rfl
  | unlock level =>
    obtain ⟨path, owner, holds, l', sets, same⟩ :=
      unlock_slots (show h.unlock level t = (_, _) from rfl)
    exact slotsTurn_of_slots path owner holds sets same
  | lockSlots offset n op => exact lockSlots_slotsTurn rfl
  | release => exact (h.release_slotsTurn t).1

end LockHolder

namespace LockHolders

/-- How many holders share a slot of a path. -/
def sharers (s : LockHolders) (key : Path.Key) (i : Fin slotCount) : Nat :=
  s.objects.count fun h => decide (h.path.key = key) && (h.hold i).shared

/-- The table and the bits of the holders tell the same of every slot. -/
structure SlotsExact (s : LockHolders) : Prop where
  counted : ∀ key (i : Fin slotCount), ((s.state.locks key).slot i).shared = s.sharers key i
  owned : ∀ name h (i : Fin slotCount), s.find? name = some h →
    (((s.state.locks h.path.key).slot i).exclusive = some h.owner ↔ (h.hold i).exclusive = true)
  /-- Whoever is named is there. -/
  there : ∀ key (i : Fin slotCount) o, ((s.state.locks key).slot i).exclusive = some o →
    ∃ name h, s.find? name = some h ∧ h.path.key = key ∧ h.owner = o
  alone : ∀ name name' h h' (i : Fin slotCount), name' ≠ name → s.find? name = some h →
    s.find? name' = some h' → h'.path.key = h.path.key → (h.hold i).exclusive = true →
    (h'.hold i).shared = false

variable {s s' : LockHolders} {name other : String} {h h' g : LockHolder} {t' : LockTable}
  {key : Path.Key} {i : Fin slotCount}

theorem start_slotsExact : start.SlotsExact := by
  have idle (key : Path.Key) (i : Fin slotCount) : (start.state.locks key).slot i = {} := by
    show getElem (Vector.replicate slotCount ({} : SlotLocks)) i.val i.isLt = {}
    simp
  refine ⟨?_, nofun, ?_, nofun⟩
  · intro key i
    rw [idle]
    rfl
  · intro key i o named
    rw [idle] at named
    cases named

theorem sharers_turned (found : s.find? name = some h) (path : h'.path = h.path) (t' : LockTable)
    (i : Fin slotCount) : (s.turned name h' t').sharers h.path.key i + (h.hold i).share =
      s.sharers h.path.key i + (h'.hold i).share := by
  have before := Keyed.count_of_find? found fun g =>
    decide (g.path.key = h.path.key) && (g.hold i).shared
  have after := Keyed.count_modify found (fun _ => h') fun g =>
    decide (g.path.key = h.path.key) && (g.hold i).shared
  simp only [path, decide_true, Bool.true_and] at before after
  rw [sharers, sharers, before]
  exact (congrArg (· + _) after).trans (Nat.add_right_comm ..)

theorem sharers_turned_elsewhere (found : s.find? name = some h) (path : h'.path = h.path)
    (t' : LockTable) (different : key ≠ h.path.key) (i : Fin slotCount) :
    (s.turned name h' t').sharers key i = s.sharers key i := by
  have before := Keyed.count_of_find? found fun g =>
    decide (g.path.key = key) && (g.hold i).shared
  have after := Keyed.count_modify found (fun _ => h') fun g =>
    decide (g.path.key = key) && (g.hold i).shared
  simp only [path, Ne.symm different, decide_false, Bool.false_and] at before after
  rw [sharers, sharers, before]
  exact after

namespace SlotsExact

/-- The counter of a slot is never below what a holder takes out of it. -/
theorem share_le (exact_ : s.SlotsExact) (found : s.find? name = some h) (i : Fin slotCount) :
    (h.hold i).share ≤ ((s.state.locks h.path.key).slot i).shared := by
  rw [exact_.counted, SlotHold.share]
  split
  · rename_i shares
    exact Keyed.count_pos_iff.mpr ⟨name, h, found, by simp [shares]⟩
  · exact Nat.zero_le _

/-- Where the counter counts nobody else, nobody else shares the slot. -/
theorem not_shared_of_few (exact_ : s.SlotsExact) (different : other ≠ name)
    (found : s.find? name = some h) (found' : s.find? other = some g)
    (same : g.path.key = h.path.key)
    (few : ((s.state.locks h.path.key).slot i).shared ≤ (h.hold i).share) :
    (g.hold i).shared = false := by
  rw [exact_.counted] at few
  refine Bool.eq_false_iff.mpr fun shares => ?_
  have mine : (decide (g.path.key = h.path.key) && (g.hold i).shared) = true := by
    simp [same, shares]
  by_cases own : (h.hold i).shared = true
  · have many : 1 < s.sharers h.path.key i :=
      Keyed.one_lt_count different found found' (by simp [own]) mine
    rw [SlotHold.share, if_pos own] at few
    omega
  · have some : 0 < s.sharers h.path.key i := Keyed.count_pos_iff.mpr ⟨other, g, found', mine⟩
    rw [SlotHold.share, if_neg own] at few
    omega

theorem turned_counted (exact_ : s.SlotsExact) (found : s.find? name = some h)
    (turns : h.SlotsTurn s.state h' t') (key : Path.Key) (i : Fin slotCount) :
    (((s.turned name h' t').state.locks key).slot i).shared =
      (s.turned name h' t').sharers key i := by
  obtain ⟨path, owner, l', sets, turn⟩ := turns
  by_cases here : key = h.path.key
  · subst here
    rw [show (s.turned name h' t').state.locks _ = l' from sets.here]
    have moved := (turn i).shared_add (exact_.share_le found i)
    have counts := sharers_turned found path t' i
    rw [← exact_.counted] at counts
    omega
  · rw [show (s.turned name h' t').state.locks key = _ from sets.elsewhere here,
      sharers_turned_elsewhere found path t' here]
    exact exact_.counted key i

/-- Whom the table names for a slot, other than the one that turned, it named before. -/
theorem exclusive_turned_iff {o : Owner} (turns : h.SlotsTurn s.state h' t')
    (other : o ≠ h.owner ∨ key ≠ h.path.key) :
    (((s.turned name h' t').state.locks key).slot i).exclusive = some o ↔
      ((s.state.locks key).slot i).exclusive = some o := by
  obtain ⟨-, -, l', sets, turn⟩ := turns
  by_cases here : key = h.path.key
  · subst here
    rw [show (s.turned name h' t').state.locks _ = l' from sets.here]
    exact (turn i).exclusive_other_iff (other.resolve_right fun different => different rfl)
  · rw [show (s.turned name h' t').state.locks key = _ from sets.elsewhere here]

theorem turned (exact_ : s.SlotsExact) (accounted : s.Accounted) (found : s.find? name = some h)
    (turns : h.SlotsTurn s.state h' t') : (s.turned name h' t').SlotsExact := by
  have turns' := turns
  obtain ⟨path, owner, l', sets, turn⟩ := turns'
  have mine (i : Fin slotCount) := (turn i).exclusive_iff (exact_.owned name h i found)
  have here := (find?_turned found h' t' name).trans (if_pos rfl)
  have distinct {other : String} {g : LockHolder} (different : other ≠ name)
      (there : s.find? other = some g) : g.owner ≠ h.owner := fun same =>
    different (accounted.distinct other name g h there found same)
  refine ⟨exact_.turned_counted found turns, ?_, ?_, ?_⟩
  · intro other g i there
    obtain ⟨rfl, rfl⟩ | ⟨different, before⟩ := turned_cases found there
    · rw [path, owner, show (s.turned other g t').state.locks _ = l' from sets.here]
      exact mine i
    · rw [exclusive_turned_iff turns (.inl (distinct different before))]
      exact exact_.owned other g i before
  · intro key i o named
    by_cases own : o = h.owner ∧ key = h.path.key
    · exact ⟨name, h', here, own.2 ▸ congrArg Path.key path, own.1 ▸ owner⟩
    · have apart : o ≠ h.owner ∨ key ≠ h.path.key := by
        by_contra neither
        rw [not_or, not_not, not_not] at neither
        exact own neither
      obtain ⟨other, g, there, same, rfl⟩ :=
        exact_.there key i o ((exclusive_turned_iff turns apart).mp named)
      have different : other ≠ name := by
        rintro rfl
        rw [found] at there
        cases there
        exact own ⟨rfl, same.symm⟩
      exact ⟨other, g, (find?_turned found h' t' other).trans ((if_neg different).trans there), same,
        rfl⟩
  · intro n n' g g' i different there there' same taken
    obtain ⟨rfl, rfl⟩ | ⟨elsewhere, before⟩ := turned_cases found there <;>
      obtain ⟨rfl, rfl⟩ | ⟨elsewhere', before'⟩ := turned_cases found there'
    · exact absurd rfl different
    · rw [path] at same
      obtain earlier | few := (turn i).few_of_exclusive taken
      · exact exact_.alone n n' h g' i different found before' same earlier
      · exact exact_.not_shared_of_few different found before' same few
    · rw [path] at same
      refine Bool.eq_false_iff.mpr fun shares => ?_
      obtain earlier | free := (turn i).free_of_shared shares
      · have apart := exact_.alone n n' g h i different before found same taken
        exact Bool.false_ne_true (apart.symm.trans earlier)
      · have named := (exact_.owned n g i before).mpr taken
        rw [← same] at named
        exact distinct elsewhere before (free _ named)
    · exact exact_.alone n n' g g' i different before before' same taken

theorem forget (exact_ : s.SlotsExact) (found : s.find? name = some h)
    (free : ∀ i, h.hold i = {}) : SlotsExact (s.forget name) := by
  have earlier {other : String} {g : LockHolder} (there : (s.forget name).find? other = some g) :
      s.find? other = some g := by
    rw [Session.find?_forget] at there
    split at there
    · cases there
    · exact there
  refine ⟨?_, ?_, ?_, ?_⟩
  · intro key i
    have before := Keyed.count_of_find? found fun g =>
      decide (g.path.key = key) && (g.hold i).shared
    simp only [free, Bool.and_false] at before
    exact (exact_.counted key i).trans before
  · intro other g i there
    exact exact_.owned other g i (earlier there)
  · intro key i o named
    obtain ⟨other, g, there, same, rfl⟩ := exact_.there key i o named
    have different : other ≠ name := by
      rintro rfl
      rw [found] at there
      cases there
      have taken := (exact_.owned other h i found).mp (same ▸ named)
      rw [free] at taken
      cases taken
    exact ⟨other, g, (Session.find?_forget ..).trans ((if_neg different).trans there), same, rfl⟩
  · intro n n' g g' i different there there' same taken
    exact exact_.alone n n' g g' i different (earlier there) (earlier there') same taken

theorem join (exact_ : s.SlotsExact) (accounted : s.Accounted) (absent : s.find? name = none)
    (path : Path) : (s.join name path).SlotsExact := by
  have empty (i : Fin slotCount) :
      ({ path, owner := s.state.nextOwner } : LockHolder).hold i = {} := by
    simp [LockHolder.hold]
  refine ⟨?_, ?_, ?_, ?_⟩
  · intro key i
    have before := Keyed.count_of_none absent fun g =>
      decide (g.path.key = key) && (g.hold i).shared
    have after := Keyed.count_insert s.objects name
      ({ path, owner := s.state.nextOwner } : LockHolder) fun g =>
        decide (g.path.key = key) && (g.hold i).shared
    simp only [empty, Bool.and_false] at after
    rw [if_neg Bool.false_ne_true, Nat.add_zero, ← before] at after
    exact (exact_.counted key i).trans after.symm
  · intro other g i there
    obtain ⟨rfl, rfl⟩ | before := join_cases there
    · rw [empty]
      refine iff_of_false (fun named => ?_) Bool.false_ne_true
      obtain ⟨other, g, there, -, same⟩ := exact_.there _ i _ named
      exact absurd same (Nat.ne_of_lt (accounted.numbered other g there))
    · exact exact_.owned other g i before
  · intro key i o named
    obtain ⟨other, g, there, same, owner⟩ := exact_.there key i o named
    have different : other ≠ name := by
      rintro rfl
      rw [absent] at there
      cases there
    exact ⟨other, g, (find?_join ..).trans ((if_neg different).trans there), same, owner⟩
  · intro n n' g g' i different there there' same taken
    obtain ⟨rfl, rfl⟩ | before := join_cases there
    · rw [empty] at taken
      cases taken
    · obtain ⟨rfl, rfl⟩ | before' := join_cases there'
      · rw [empty]
      · exact exact_.alone n n' g g' i different before before' same taken

theorem give (exact_ : s.SlotsExact) (accounted : s.Accounted) (name : String) :
    (s.give name).SlotsExact := by
  cases found : s.find? name with
  | none => rwa [give_of_none found]
  | some h =>
    obtain ⟨turns, free⟩ := h.release_slotsTurn s.state
    rw [give_of_find? found]
    exact (exact_.turned accounted found turns).forget
      ((find?_turned found _ _ name).trans (if_pos rfl)) free

theorem step (exact_ : s.SlotsExact) (accounted : s.Accounted) (e : LockEvent) :
    (s.step e).SlotsExact := by
  cases e with
  | make name path =>
    obtain ⟨given, absent⟩ : Relation.ReflTransGen (Moved fun _ _ => True) s (s.give name) ∧ _ :=
      give_moved (fun _ => trivial) name
    exact (exact_.give accounted name).join
      (keeps_of_moved _ Accounted.moved given accounted) absent path
  | ask name request =>
    cases found : s.find? name with
    | none => rwa [step_ask_of_none found]
    | some h =>
      rw [step_ask found]
      exact exact_.turned accounted found (h.serve_slotsTurn request s.state)
  | drop name => exact exact_.give accounted name

end SlotsExact

theorem run_slotsExact (exact_ : s.SlotsExact) (accounted : s.Accounted) (events : List LockEvent) :
    (s.run events).SlotsExact := by
  induction events generalizing s with
  | nil => exact exact_
  | cons e rest ih => exact ih (exact_.step accounted e) (step_accounted accounted e)

/-- Of two holders on a path, at most one has a slot that either of them has alone. -/
theorem SlotsExact.hold_of_exclusive (exact_ : s.SlotsExact) (accounted : s.Accounted)
    (different : other ≠ name) (found : s.find? name = some h) (found' : s.find? other = some g)
    (same : g.path.key = h.path.key) (taken : (h.hold i).exclusive = true) : g.hold i = {} := by
  have shared := exact_.alone name other h g i different found found' same taken
  have exclusive : (g.hold i).exclusive = false := by
    refine Bool.eq_false_iff.mpr fun again => different ?_
    have named := (exact_.owned name h i found).mpr taken
    have named' := (exact_.owned other g i found').mpr again
    rw [same, named] at named'
    exact accounted.distinct other name g h found' found (Option.some.inj named').symm
  exact congrArg₂ SlotHold.mk shared exclusive

theorem step_unlockSlots (exact_ : s.SlotsExact) (found : s.find? name = some h) {offset n : Nat}
    {op : SlotLockOp} (unlocks : op = .unlockShared ∨ op = .unlockExclusive)
    (inside : 0 < n ∧ offset + n ≤ slotCount) :
    (h.lockSlots offset n op s.state).1 = .ok () ∧
      s.SlotsFreed name h (fun i => offset ≤ i ∧ i < offset + n)
        (s.step (.ask name (.lockSlots offset n op))) := by
  have served : h.lockSlots offset n op s.state = (.ok (), h.forgetSlots offset n,
      s.state.settle h.path.key (h.freeSlots offset n (s.state.locks h.path.key))) := by
    rw [LockHolder.lockSlots, if_neg (by omega)]
    obtain rfl | rfl := unlocks <;> rfl
  rw [step_ask found, LockHolder.serve, served]
  have sets := LockTable.sets_settle s.state h.path.key
    (h.freeSlots offset n (s.state.locks h.path.key))
  generalize s.state.settle _ _ = t' at sets
  have here (i : Fin slotCount) :
      (h.freeSlots offset n (s.state.locks h.path.key)).slot i = _ :=
    LockHolder.slot_freeSlots (s.state.locks h.path.key)
  have locks : (s.turned name (h.forgetSlots offset n) t').state.locks h.path.key = _ := sets.here
  refine ⟨rfl, ⟨?_, ?_, ?_, ?_, ?_, ?_, ?_⟩⟩
  · intro other different
    exact (find?_turned found ..).trans (if_neg different)
  · intro key different
    exact sets.elsewhere different
  · refine ⟨_, (find?_turned found ..).trans (if_pos rfl), rfl, rfl, rfl, ?_, ?_⟩
    · intro i named
      rw [LockHolder.hold_forgetSlots, if_pos (LockHolder.inRange_iff.mpr named)]
    · intro i unnamed
      rw [LockHolder.hold_forgetSlots, if_neg (mt LockHolder.inRange_iff.mp unnamed)]
  · rw [locks]
    exact FileLocks.sameLevels_slots ..
  · intro i unnamed
    rw [locks, here, if_neg (mt LockHolder.inRange_iff.mp unnamed)]
  · intro i named
    rw [locks, here, if_pos (LockHolder.inRange_iff.mpr named)]
    exact Nat.sub_add_cancel (exact_.share_le found i)
  · intro i o named
    rw [locks, here, if_pos (LockHolder.inRange_iff.mpr named)]
    exact FileLocks.without_eq_some_iff

end LockHolders
end MappedStorage
