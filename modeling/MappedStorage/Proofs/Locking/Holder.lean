import MappedStorage.Proofs.Locking.Table

/-!
What one holder does to the locks of its path. A request is met, refused, granted, or leaves the
holder waiting (`LockHolder.Locked`). Whatever the operation, the holder passes from one level to
another and the locks of its path with it (`FileLocks.Turn`), while nobody else's locks change
(`LockHolder.Turns`).
-/

namespace MappedStorage

namespace FileLocks

variable {l l' : FileLocks} {a b x : LockLevel} {me o : Owner}

/-- The locks of a file when an owner passes from one level to another. -/
inductive Turn (l : FileLocks) (me : Owner) : LockLevel → LockLevel → FileLocks → Prop
  | stays {a : LockLevel} {l' : FileLocks} (same : l.SameLevels l') : Turn l me a a l'
  /-- The owner rises, or, when it was waiting already, is only named again. -/
  | granted {a b : LockLevel} (reads : .shared ≤ b) (up : a ≤ b) (counted : b = .shared → a = .none)
      (free : ¬ l.Hinders b me) (few : b = .exclusive → l.shared ≤ 1) :
      Turn l me a b (l.grant me b)
  | lowered {a b : LockLevel} {l' : FileLocks} (down : b < a)
      (readers : l'.shared = if b = .none then l.shared - 1 else l.shared)
      (left : ∀ x, l'.holderAt x =
        if .shared < a then without (l.holderAt x) me else l.holderAt x) :
      Turn l me a b l'

/-- Nobody loses a level, or is given one, by what another owner does. -/
theorem Turn.holderAt_other_iff (turn : l.Turn me a b l') (other : o ≠ me) :
    l'.holderAt x = some o ↔ l.holderAt x = some o := by
  cases turn with
  | stays same => rw [same.holderAt]
  | granted reads up counted free few => exact holderAt_grant_iff free other
  | lowered down readers left =>
    rw [left]
    split
    · simp [without_eq_some_iff, other]
    · rfl

/-- The table names nobody for a level that it does not have. -/
theorem Turn.le_of_holderAt (turn : l.Turn me a b l')
    (before : ∀ x, l.holderAt x = some me → x ≤ a) (named : l'.holderAt x = some me) : x ≤ b := by
  cases turn with
  | stays same =>
    rw [same.holderAt] at named
    exact before x named
  | granted reads up counted free few =>
    obtain here | earlier := holderAt_grant_le named
    · exact here
    · exact le_trans (before x earlier) up
  | lowered down readers left =>
    rw [left] at named
    split at named
    · exact absurd rfl (without_eq_some_iff.mp named).2
    · rename_i low
      have above := shared_lt_of_holderAt named
      exact absurd (lt_of_lt_of_le above (before x named)) low

/-- Nothing is held any more, whatever became of the slots before. -/
theorem Turn.of_sameLevels {l₁ : FileLocks} (same : l.SameLevels l₁)
    (turn : l₁.Turn me a .none l') : l.Turn me a .none l' := by
  cases turn with
  | stays same' => exact .stays (same.trans same')
  | granted reads => exact absurd reads (by decide)
  | lowered down readers left =>
    refine .lowered down ?_ ?_
    · rw [readers, same.shared]
    · intro x
      rw [left, same.holderAt]

end FileLocks

/-- What a request for a level comes to. -/
inductive LockHolder.Locked (h : LockHolder) (level : LockLevel) (t : LockTable) :
    Except ProviderError Unit → LockHolder → LockTable → Prop
  | met (enough : level ≤ h.level) : Locked h level t (.ok ()) h t
  | refused {t' : LockTable} (above : h.level < level)
      (hindered : (t.locks h.path.key).Hinders level h.owner)
      (sets : t.Sets h.path.key (t.locks h.path.key) t') : Locked h level t (.error .busy) h t'
  | granted {t' : LockTable} (above : h.level < level)
      (free : ¬ (t.locks h.path.key).Hinders level h.owner)
      (few : level = .exclusive → (t.locks h.path.key).shared ≤ 1)
      (sets : t.Sets h.path.key ((t.locks h.path.key).grant h.owner level) t') :
      Locked h level t (.ok ()) { h with level } t'
  /-- Only readers stand in the way. -/
  | waiting {t' : LockTable} (sought : level = .exclusive) (above : h.level < level)
      (free : ¬ (t.locks h.path.key).Hinders level h.owner)
      (many : 1 < (t.locks h.path.key).shared)
      (sets : t.Sets h.path.key ((t.locks h.path.key).grant h.owner .pending) t') :
      Locked h level t (.error .busy) { h with level := .pending } t'

/-- A holder has passed from one level to another, and the locks of its path with it. -/
structure LockHolder.Turns (h : LockHolder) (t : LockTable) (h' : LockHolder) (t' : LockTable) :
    Prop where
  path : h'.path = h.path
  owner : h'.owner = h.owner
  turn : ∃ l', (t.locks h.path.key).Turn h.owner h.level h'.level l' ∧ t.Sets h.path.key l' t'

namespace LockHolder

open FileLocks

variable {h h' : LockHolder} {t t' : LockTable} {level : LockLevel}
  {result : Except ProviderError Unit} {offset n : Nat} {op : SlotLockOp}

theorem lock_correct (locked : h.lock level t = (result, h', t')) :
    h.Locked level t result h' t' := by
  rw [lock] at locked
  split at locked
  · rename_i enough
    cases locked
    exact .met enough
  · rename_i less
    have above : h.level < level := not_le.mp less
    cases level with
    | none => exact absurd (LockLevel.none_le _) less
    | reserved =>
      simp only at locked
      split at locked
      · rename_i held
        cases locked
        exact .refused above (hinders_reserved_iff.mpr held) (LockTable.sets_touch ..)
      · rename_i free
        cases locked
        exact .granted above (fun hinders => free (hinders_reserved_iff.mp hinders)) nofun
          (LockTable.sets_insert ..)
    | shared | pending =>
      simp only at locked
      split at locked
      · rename_i held
        cases locked
        exact .refused above ((hinders_iff (by decide)).mpr held) (LockTable.sets_touch ..)
      · rename_i free
        cases locked
        exact .granted above (fun hinders => free ((hinders_iff (by decide)).mp hinders)) nofun
          (LockTable.sets_insert ..)
    | exclusive =>
      simp only at locked
      split at locked
      · rename_i held
        cases locked
        exact .refused above ((hinders_iff (by decide)).mpr held) (LockTable.sets_touch ..)
      · rename_i free
        have free : ¬ (t.locks h.path.key).Hinders .exclusive h.owner :=
          fun hinders => free ((hinders_iff (by decide)).mp hinders)
        split at locked
        · rename_i many
          cases locked
          have below : h.level ≤ .pending := LockLevel.le_pending_iff.mpr above
          rw [LockLevel.sup, if_pos below]
          exact .waiting rfl above free many (LockTable.sets_insert ..)
        · rename_i few
          cases locked
          exact .granted above free (fun _ => Nat.not_lt.mp few) (LockTable.sets_insert ..)

theorem turns_of_sameLevels (path : h'.path = h.path) (owner : h'.owner = h.owner)
    (level : h'.level = h.level) {l' : FileLocks} (same : (t.locks h.path.key).SameLevels l')
    (sets : t.Sets h.path.key l' t') : h.Turns t h' t' := by
  refine ⟨path, owner, l', ?_, sets⟩
  rw [level]
  exact .stays same

theorem lock_turns (locked : h.lock level t = (result, h', t')) : h.Turns t h' t' := by
  have same := SameLevels.refl (t.locks h.path.key)
  cases lock_correct locked with
  | met enough => exact turns_of_sameLevels rfl rfl rfl same (.refl ..)
  | refused above hindered sets => exact turns_of_sameLevels rfl rfl rfl same sets
  | granted above free few sets =>
    refine ⟨rfl, rfl, _, .granted ?_ (le_of_lt above) ?_ free few, sets⟩
    · exact LockLevel.none_lt_iff.mp (lt_of_le_of_lt (LockLevel.none_le _) above)
    · intro shared
      exact LockLevel.eq_none_iff.mpr (shared ▸ above)
  | waiting sought above free many sets =>
    have reads : LockLevel.shared ≤ .pending := by decide
    refine ⟨rfl, rfl, _, .granted reads ?_ nofun ?_ nofun, sets⟩
    · exact LockLevel.le_pending_iff.mpr (sought ▸ above)
    · intro hinders
      rw [sought] at free
      exact free (hinders_pending_iff.mp hinders)

theorem unlock_turns (unlocked : h.unlock level t = (h', t')) : h.Turns t h' t' := by
  rw [unlock] at unlocked
  split at unlocked
  · cases unlocked
    exact turns_of_sameLevels rfl rfl rfl (.refl _) (.refl ..)
  · rename_i above
    cases unlocked
    refine ⟨rfl, rfl, _, .lowered (not_le.mp above) ?_ ?_, LockTable.sets_settle ..⟩
    · split <;> split <;> rfl
    · intro x
      by_cases high : LockLevel.shared < h.level <;> by_cases last : level = .none <;>
        cases x <;> simp only [high, last, if_true, if_false, holderAt] <;> rfl

theorem unlock_level (unlocked : h.unlock level t = (h', t')) (above : level ≤ h.level) :
    h'.level = level := by
  rw [unlock] at unlocked
  split at unlocked
  · rename_i below
    cases unlocked
    exact le_antisymm below above
  · cases unlocked
    rfl

theorem lockSlots_turns (locked : h.lockSlots offset n op t = (result, h', t')) :
    h.Turns t h' t' ∧ h'.level = h.level := by
  have slots (l : FileLocks) (slots : Vector SlotLocks slotCount) :
      l.SameLevels { l with slots } := sameLevels_slots l slots
  rw [lockSlots] at locked
  split at locked
  · cases locked
    exact ⟨turns_of_sameLevels rfl rfl rfl (.refl _) (.refl ..), rfl⟩
  · cases op with
    | unlockShared | unlockExclusive =>
      cases locked
      exact ⟨turns_of_sameLevels rfl rfl rfl (slots _ _) (LockTable.sets_settle ..), rfl⟩
    | lockShared | lockExclusive =>
      simp only at locked
      split at locked
      · cases locked
        exact ⟨turns_of_sameLevels rfl rfl rfl (.refl _) (LockTable.sets_touch ..), rfl⟩
      · cases locked
        exact ⟨turns_of_sameLevels rfl rfl rfl (slots _ _) (LockTable.sets_settle ..), rfl⟩

/-- Letting go of the slots first leaves the levels as they are. -/
theorem release_turns (h : LockHolder) (t : LockTable) :
    h.Turns t (h.release t).1 (h.release t).2 ∧ (h.release t).1.level = .none := by
  rcases freed : h.unlockAllSlots t with ⟨h₁, t₁⟩
  rcases unlocked : h₁.unlock .none t₁ with ⟨h₂, t₂⟩
  have released : h.release t = (h₂, t₂) := by
    rw [release, freed]
    exact unlocked
  obtain ⟨path, owner, level, l₁, same, sets⟩ : h₁.path = h.path ∧ h₁.owner = h.owner ∧
      h₁.level = h.level ∧
      ∃ l₁, (t.locks h.path.key).SameLevels l₁ ∧ t.Sets h.path.key l₁ t₁ := by
    rw [unlockAllSlots] at freed
    split at freed
    · cases freed
      exact ⟨rfl, rfl, rfl, _, sameLevels_slots .., LockTable.sets_settle ..⟩
    · cases freed
      exact ⟨rfl, rfl, rfl, _, .refl _, .refl ..⟩
  obtain ⟨path', owner', l', turn, sets'⟩ := unlock_turns unlocked
  have none := unlock_level unlocked (LockLevel.none_le _)
  rw [path, sets.here, owner, level, none] at turn
  rw [path] at sets'
  rw [released]
  refine ⟨⟨path'.trans path, owner'.trans owner, l', ?_, sets.trans sets'⟩, none⟩
  rw [none]
  exact turn.of_sameLevels same

end LockHolder

/-! ## Clients -/

/-- The path whose locks a client asks for. -/
def LockClient.path? : LockClient → Option Path
  | .none => Option.none
  | .inProcess h => some h.path

/-- A client remains one of the same path, and the locks of other paths stay. -/
structure LockClient.Stays (k : LockClient) (t : LockTable) (k' : LockClient) (t' : LockTable) : Prop where
  path : k'.path? = k.path?
  elsewhere : ∀ key, (∀ path, k.path? = some path → path.key ≠ key) → t'.locks key = t.locks key

namespace LockClient

variable {k k' k'' : LockClient} {t t' t'' : LockTable}

theorem Stays.refl (k : LockClient) (t : LockTable) : k.Stays t k t := ⟨rfl, fun _ _ => rfl⟩

theorem Stays.trans (first : k.Stays t k' t') (second : k'.Stays t' k'' t'') : k.Stays t k'' t'' := by
  refine ⟨second.path.trans first.path, ?_⟩
  intro key away
  exact (second.elsewhere key (first.path ▸ away)).trans (first.elsewhere key away)

theorem stays_of_turns {h h' : LockHolder} (turns : h.Turns t h' t') :
    (inProcess h).Stays t (inProcess h') t' := by
  obtain ⟨path, _, l, _, sets⟩ := turns
  refine ⟨congrArg some path, ?_⟩
  intro key away
  exact sets.elsewhere (away h.path rfl).symm

theorem lock_stays (k : LockClient) (level : LockLevel) (t : LockTable) :
    k.Stays t (k.lock level t).2.1 (k.lock level t).2.2 := by
  cases k with
  | none => exact .refl ..
  | inProcess h =>
    rcases locked : h.lock level t with ⟨result, h', t'⟩
    rw [lock, locked]
    exact stays_of_turns (LockHolder.lock_turns locked)

theorem unlock_stays (k : LockClient) (level : LockLevel) (t : LockTable) :
    k.Stays t (k.unlock level t).1 (k.unlock level t).2 := by
  cases k with
  | none => exact .refl ..
  | inProcess h =>
    rcases unlocked : h.unlock level t with ⟨h', t'⟩
    rw [unlock, unlocked]
    exact stays_of_turns (LockHolder.unlock_turns unlocked)

theorem lockSlots_stays (k : LockClient) (offset n : Nat) (op : SlotLockOp) (t : LockTable) :
    k.Stays t (k.lockSlots offset n op t).2.1 (k.lockSlots offset n op t).2.2 := by
  cases k with
  | none => exact .refl ..
  | inProcess h =>
    rcases locked : h.lockSlots offset n op t with ⟨result, h', t'⟩
    rw [lockSlots, locked]
    exact stays_of_turns (LockHolder.lockSlots_turns locked).1

theorem release_stays (k : LockClient) (t : LockTable) :
    k.Stays t (k.release t).1 (k.release t).2 := by
  cases k with
  | none => exact .refl ..
  | inProcess h => exact stays_of_turns (h.release_turns t).1

/-! What a client is told depends on the locks of its path alone. -/

section

variable (same : ∀ path, k.path? = some path → t'.locks path.key = t.locks path.key)
include same

theorem isReserved_congr : k.isReserved t' = k.isReserved t := by
  cases k with
  | none => rfl
  | inProcess h =>
    refine Bool.eq_iff_iff.mpr ?_
    rw [isReserved, isReserved, LockHolder.isReserved_iff, LockHolder.isReserved_iff, same h.path rfl]

theorem lock_congr (level : LockLevel) : (k.lock level t').1 = (k.lock level t).1 := by
  cases k with
  | none => rfl
  | inProcess h =>
    have told : (h.lock level t').1 = (h.lock level t).1 := by
      simp only [LockHolder.lock, same h.path rfl]
      split
      · rfl
      · cases level <;> dsimp only <;> split_ifs <;> rfl
    exact told

theorem lockSlots_congr (offset n : Nat) (op : SlotLockOp) :
    (k.lockSlots offset n op t').1 = (k.lockSlots offset n op t).1 := by
  cases k with
  | none => rfl
  | inProcess h =>
    have told : (h.lockSlots offset n op t').1 = (h.lockSlots offset n op t).1 := by
      simp only [LockHolder.lockSlots, same h.path rfl]
      split
      · rfl
      · cases op <;> dsimp only <;> split_ifs <;> rfl
    exact told

end

end LockClient
end MappedStorage
