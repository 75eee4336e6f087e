import Mathlib.Order.Defs.LinearOrder
import MappedStorage.Locking.Table

/-!
The table of locks as its users see it: a path without an entry is one that nobody has locked, so an
operation sets the locks of one path and leaves those of all others (`LockTable.Sets`). Above the
shared level the table names one holder for each level (`FileLocks.holderAt`); a request is hindered
by the holder of another owner (`FileLocks.Hinders`), and a request that is granted makes its owner
the holder (`FileLocks.grant`).
-/

namespace MappedStorage

theorem SlotLocks.isFree_iff {s : SlotLocks} : s.isFree = true ↔ s = {} := by
  obtain ⟨shared, exclusive⟩ := s
  simp [isFree]

namespace LockLevel

instance : LinearOrder LockLevel where
  le_refl a := Nat.le_refl a.rank
  le_trans _ _ _ := Nat.le_trans
  lt_iff_le_not_ge a b := by
    rw [lt_iff_rank, le_iff_rank, le_iff_rank]
    omega
  le_antisymm a b := by cases a <;> cases b <;> decide
  le_total a b := Nat.le_total a.rank b.rank
  toDecidableLE := inferInstance
  toDecidableLT := inferInstance

variable {a : LockLevel}

theorem none_le (a : LockLevel) : .none ≤ a := Nat.zero_le _

theorem not_shared_le_none : ¬ LockLevel.shared ≤ .none := by decide

theorem le_exclusive (a : LockLevel) : a ≤ .exclusive := by
  cases a <;> decide

theorem eq_none_iff : a = .none ↔ a < .shared := by
  cases a <;> decide

theorem none_lt_iff : .none < a ↔ .shared ≤ a := by
  cases a <;> decide

theorem le_pending_iff : a ≤ .pending ↔ a < .exclusive := by
  cases a <;> decide

theorem shared_lt_iff : .shared < a ↔ .reserved ≤ a := by
  cases a <;> decide

theorem reserved_lt_iff : .reserved < a ↔ .pending ≤ a := by
  cases a <;> decide

theorem exclusive_le_iff : .exclusive ≤ a ↔ a = .exclusive := by
  cases a <;> decide

end LockLevel

namespace FileLocks

variable {l l' : FileLocks} {level x : LockLevel} {holder : Option Owner} {me o : Owner}

theorem isFree_iff : l.isFree = true ↔ l = {} := by
  constructor
  · intro free
    simp only [isFree, Bool.and_eq_true, beq_iff_eq, Option.isNone_iff_eq_none] at free
    obtain ⟨⟨⟨⟨readers, reserved⟩, pending⟩, exclusive⟩, idle⟩ := free
    have slots : l.slots = Vector.replicate slotCount {} := by
      apply Vector.ext
      intro i inside
      rw [Vector.getElem_replicate]
      exact SlotLocks.isFree_iff.mp (Vector.all_eq_true.mp idle i inside)
    obtain ⟨shared, _, _, _, _⟩ := l
    cases readers
    cases reserved
    cases pending
    cases exclusive
    cases slots
    rfl
  · rintro rfl
    have idle : (Vector.replicate slotCount ({} : SlotLocks)).all SlotLocks.isFree = true := by
      rw [Vector.all_eq_true]
      intro i inside
      rw [Vector.getElem_replicate]
      rfl
    rw [isFree, idle]
    rfl

theorem heldByOther_iff : heldByOther holder me = true ↔ ∃ o, o ≠ me ∧ holder = some o := by
  cases holder with
  | none => simp [heldByOther]
  | some owner => simp [heldByOther]

theorem without_eq_some_iff : without holder me = some o ↔ holder = some o ∧ o ≠ me := by
  rw [without]
  constructor
  · intro left
    split at left
    · cases left
    · rename_i other
      refine ⟨left, ?_⟩
      rintro rfl
      exact other left
  · rintro ⟨rfl, other⟩
    simp [other]

/-- The holder that the table names for a level. It names none for the shared one. -/
def holderAt (l : FileLocks) : LockLevel → Option Owner
  | .none | .shared => none
  | .reserved => l.reserved
  | .pending => l.pending
  | .exclusive => l.exclusive

/-- What holds for the levels of a file lock, whatever becomes of the slots. -/
structure SameLevels (l l' : FileLocks) : Prop where
  shared : l'.shared = l.shared
  holderAt : ∀ x, l'.holderAt x = l.holderAt x

theorem SameLevels.refl (l : FileLocks) : l.SameLevels l := ⟨rfl, fun _ => rfl⟩

theorem SameLevels.trans {l'' : FileLocks} (first : l.SameLevels l') (second : l'.SameLevels l'') :
    l.SameLevels l'' :=
  ⟨second.shared.trans first.shared, fun x => (second.holderAt x).trans (first.holderAt x)⟩

theorem sameLevels_slots (l : FileLocks) (slots : Vector SlotLocks slotCount) :
    l.SameLevels { l with slots } := by
  refine ⟨rfl, ?_⟩
  intro x
  cases x <;> rfl

theorem shared_lt_of_holderAt (named : l.holderAt x = some o) : .shared < x := by
  cases x
  case none | shared => cases named
  all_goals decide

/-- Some other owner stands in the way of a level: for the reserved one whoever has reserved the
file, for all others whoever keeps new readers out. -/
def Hinders (l : FileLocks) (level : LockLevel) (me : Owner) : Prop :=
  ∃ o, o ≠ me ∧ if level = .reserved then l.reserved = some o
    else l.pending = some o ∨ l.exclusive = some o

/-- The locks once an owner has been granted a level. -/
def grant (l : FileLocks) (me : Owner) : LockLevel → FileLocks
  | .none => l
  | .shared => { l with shared := l.shared + 1 }
  | .reserved => { l with reserved := some me }
  | .pending => { l with pending := some me }
  | .exclusive => { l with pending := some me, exclusive := some me }

theorem hinders_iff (other : level ≠ .reserved) : l.Hinders level me ↔
    (heldByOther l.pending me || heldByOther l.exclusive me) = true := by
  simp only [Hinders, other, Bool.or_eq_true, heldByOther_iff, if_false]
  constructor
  · rintro ⟨o, different, pending | exclusive⟩
    · exact .inl ⟨o, different, pending⟩
    · exact .inr ⟨o, different, exclusive⟩
  · rintro (⟨o, different, pending⟩ | ⟨o, different, exclusive⟩)
    · exact ⟨o, different, .inl pending⟩
    · exact ⟨o, different, .inr exclusive⟩

theorem hinders_reserved_iff : l.Hinders .reserved me ↔ heldByOther l.reserved me = true := by
  simp [Hinders, heldByOther_iff]

theorem Hinders.holderAt (hinders : l.Hinders level me) :
    ∃ o x, o ≠ me ∧ l.holderAt x = some o := by
  obtain ⟨o, other, named⟩ := hinders
  split at named
  · exact ⟨o, .reserved, other, named⟩
  · obtain pending | exclusive := named
    · exact ⟨o, .pending, other, pending⟩
    · exact ⟨o, .exclusive, other, exclusive⟩

theorem hinders_pending_iff : l.Hinders .pending me ↔ l.Hinders .exclusive me := by
  rw [hinders_iff (by decide), hinders_iff (by decide)]

/-- A level that is granted takes the place of no other owner. -/
theorem holderAt_grant_iff (free : ¬ l.Hinders level me) (other : o ≠ me) :
    (l.grant me level).holderAt x = some o ↔ l.holderAt x = some o := by
  have unreserved (reserved : level = .reserved) : l.reserved ≠ some o := by
    intro named
    exact free ⟨o, other, by simp [reserved, named]⟩
  have unpending (free_of : level ≠ .reserved) : l.pending ≠ some o ∧ l.exclusive ≠ some o := by
    constructor
    · intro named
      exact free ⟨o, other, by simp [free_of, named]⟩
    · intro named
      exact free ⟨o, other, by simp [free_of, named]⟩
  cases level <;> cases x <;> simp_all [grant, holderAt, eq_comm]

theorem holderAt_grant_le (named : (l.grant me level).holderAt x = some me) :
    x ≤ level ∨ l.holderAt x = some me := by
  cases level <;> cases x <;> first | exact .inl (by decide) | exact .inr named

end FileLocks

namespace LockTable

variable {t t' t'' : LockTable} {key other : Path.Key} {l l' : FileLocks}

theorem locks_insert : (t.insert key l).locks other = if other = key then l else t.locks other := by
  simp only [locks, find?, insert, Keyed.find?_insert]
  split <;> rfl

/-- An entry that is removed because it is idle shows the same as before. -/
theorem locks_settle : (t.settle key l).locks other = if other = key then l else t.locks other := by
  rw [settle]
  split
  · rename_i free
    rw [FileLocks.isFree_iff.mp free]
    simp only [locks, find?, erase, Keyed.find?_erase]
    split <;> rfl
  · exact locks_insert

theorem locks_touch : (t.touch key).locks other = t.locks other := by
  rw [touch]
  split
  · rfl
  · rename_i absent
    rw [locks_insert]
    split
    · rename_i here
      rw [here, locks, absent]
      rfl
    · rfl

/-- The table with the locks of one path set. -/
structure Sets (t : LockTable) (key : Path.Key) (l : FileLocks) (t' : LockTable) : Prop where
  locks : ∀ other, t'.locks other = if other = key then l else t.locks other
  nextOwner : t'.nextOwner = t.nextOwner

theorem Sets.here (sets : t.Sets key l t') : t'.locks key = l := by rw [sets.locks, if_pos rfl]

theorem Sets.elsewhere (sets : t.Sets key l t') (different : other ≠ key) :
    t'.locks other = t.locks other := by rw [sets.locks, if_neg different]

theorem Sets.refl (t : LockTable) (key : Path.Key) : t.Sets key (t.locks key) t := by
  refine ⟨?_, rfl⟩
  intro other
  split
  · rename_i here
    rw [here]
  · rfl

theorem Sets.trans (first : t.Sets key l t') (second : t'.Sets key l' t'') : t.Sets key l' t'' := by
  refine ⟨?_, second.nextOwner.trans first.nextOwner⟩
  intro other
  rw [second.locks]
  split
  · rfl
  · rename_i different
    exact first.elsewhere different

theorem sets_insert (t : LockTable) (key : Path.Key) (l : FileLocks) :
    t.Sets key l (t.insert key l) := ⟨fun _ => locks_insert, rfl⟩

theorem sets_settle (t : LockTable) (key : Path.Key) (l : FileLocks) :
    t.Sets key l (t.settle key l) := by
  refine ⟨fun _ => locks_settle, ?_⟩
  rw [settle]
  split <;> rfl

theorem sets_touch (t : LockTable) (key : Path.Key) : t.Sets key (t.locks key) (t.touch key) := by
  refine ⟨?_, ?_⟩
  · intro other
    rw [locks_touch]
    exact (Sets.refl t key).locks other
  · rw [touch]
    split <;> rfl

end LockTable

theorem LockHolder.isReserved_iff {h : LockHolder} {t : LockTable} :
    h.isReserved t = true ↔ ∃ x o, (t.locks h.path.key).holderAt x = some o := by
  rw [isReserved, LockTable.locks]
  cases t.find? h.path.key with
  | none =>
    refine iff_of_false nofun ?_
    rintro ⟨x, o, named⟩
    cases x <;> cases named
  | some l =>
    simp only [Option.getD_some, Bool.or_eq_true, Option.isSome_iff_exists]
    constructor
    · rintro ((⟨o, named⟩ | ⟨o, named⟩) | ⟨o, named⟩)
      · exact ⟨.reserved, o, named⟩
      · exact ⟨.pending, o, named⟩
      · exact ⟨.exclusive, o, named⟩
    · rintro ⟨x, o, named⟩
      cases x with
      | none | shared => cases named
      | reserved => exact .inl (.inl ⟨o, named⟩)
      | pending => exact .inl (.inr ⟨o, named⟩)
      | exclusive => exact .inr ⟨o, named⟩

end MappedStorage
