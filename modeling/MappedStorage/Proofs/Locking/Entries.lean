import MappedStorage.Proofs.Locking.Atomicity

/-!
When a path has an entry in the table of locks. Every request settles the entry of its path, which is kept
if something is held there and removed if not (`LockTable.Settles`), so no table that holders make ever keeps
an idle entry (`LockTable.NoIdle`). What is held at a path is held by some holder, so once all of them have
let go the path has no entry (`LockHolders.locks_of_idle`).
-/

namespace MappedStorage

/-- Somebody is recorded as a holder of the file lock or of a slot. -/
inductive FileLocks.Held (l : FileLocks) : Prop
  | reader (some : 0 < l.shared)
  | owner {x : LockLevel} {o : Owner} (named : l.holderAt x = some o)
  | sharer {i : Fin slotCount} (some : 0 < (l.slot i).shared)
  | slotOwner {i : Fin slotCount} {o : Owner} (named : (l.slot i).exclusive = some o)

/-- Every entry records a hold. -/
def LockTable.NoIdle (t : LockTable) : Prop := ∀ key l, t.find? key = some l → l.Held

/-- The entry of a path is as it was, or is settled. -/
inductive LockTable.Settles (t : LockTable) (key : Path.Key) : LockTable → Prop
  | kept : Settles t key t
  | settled (l : FileLocks) : Settles t key (t.settle key l)

namespace FileLocks

variable {l : FileLocks}

theorem held_of_ne_free (used : l ≠ {}) : l.Held := by
  by_contra idle
  have shared : l.shared = 0 := Nat.eq_zero_of_not_pos fun some => idle (.reader some)
  have unnamed (x : LockLevel) : l.holderAt x = none :=
    Option.eq_none_iff_forall_ne_some.mpr fun _ named => idle (.owner named)
  have slots : l.slots = Vector.replicate slotCount {} := by
    apply Vector.ext
    intro i inside
    have slot : l.slot ⟨i, inside⟩ = {} := congrArg₂ SlotLocks.mk
      (Nat.eq_zero_of_not_pos fun some => idle (.sharer some))
      (Option.eq_none_iff_forall_ne_some.mpr fun _ named => idle (.slotOwner named))
    rw [Vector.getElem_replicate]
    exact slot
  obtain ⟨_, _, _, _, _⟩ := l
  cases shared
  cases unnamed .reserved
  cases unnamed .pending
  cases unnamed .exclusive
  cases slots
  exact used rfl

theorem grant_ne_free {me : Owner} {level : LockLevel} (reads : .shared ≤ level) : l.grant me level ≠ {} := by
  intro free
  cases level with
  | none => exact absurd reads (by decide)
  | shared => exact absurd (congrArg FileLocks.shared free) (Nat.succ_ne_zero _)
  | reserved => cases congrArg FileLocks.reserved free
  | pending | exclusive => cases congrArg FileLocks.pending free

end FileLocks

/-! ## Requests of one holder -/

namespace LockTable

variable {t t' : LockTable} {key : Path.Key} {l : FileLocks}

theorem settle_of_ne_free (used : l ≠ {}) : t.settle key l = t.insert key l := by
  rw [settle, if_neg fun free => used (FileLocks.isFree_iff.mp free)]

theorem settles_insert (used : l ≠ {}) : t.Settles key (t.insert key l) :=
  settle_of_ne_free used ▸ .settled l

theorem settles_touch (used : t.locks key ≠ {}) : t.Settles key (t.touch key) :=
  (touch_of_locks_ne used).symm ▸ .kept

theorem NoIdle.settle (noIdle : t.NoIdle) (key : Path.Key) (l : FileLocks) : (t.settle key l).NoIdle := by
  intro other l' found
  rw [LockTable.settle] at found
  split at found
  · rw [find?, erase, Keyed.find?_erase] at found
    split at found
    · cases found
    · exact noIdle other l' found
  · rename_i used
    rw [find?, insert, Keyed.find?_insert] at found
    split at found
    · cases found
      exact FileLocks.held_of_ne_free fun free => used (FileLocks.isFree_iff.mpr free)
    · exact noIdle other l' found

theorem NoIdle.settles (noIdle : t.NoIdle) (settles : t.Settles key t') : t'.NoIdle := by
  cases settles with
  | kept => exact noIdle
  | settled l => exact noIdle.settle key l

end LockTable

namespace LockHolder

open FileLocks

variable {h : LockHolder} {t : LockTable}

theorem lock_settles (h : LockHolder) (level : LockLevel) (t : LockTable) :
    t.Settles h.path.key (h.lock level t).2.2 := by
  -- Whoever stands in the way has an entry, so none is made for a request that is refused.
  have touched (level : LockLevel) (hindered : (t.locks h.path.key).Hinders level h.owner) :
      t.Settles h.path.key (t.touch h.path.key) := LockTable.settles_touch hindered.ne_free
  have granted (level : LockLevel) (reads : .shared ≤ level) :
      t.Settles h.path.key (t.insert h.path.key ((t.locks h.path.key).grant h.owner level)) :=
    LockTable.settles_insert (grant_ne_free reads)
  rw [LockHolder.lock]
  split
  · exact .kept
  · cases level with
    | none => exact .kept
    | reserved =>
      simp only
      split
      · rename_i held
        exact touched .reserved (hinders_reserved_iff.mpr held)
      · exact granted .reserved (by decide)
    | shared =>
      simp only
      split
      · rename_i held
        exact touched .shared ((hinders_iff (by decide)).mpr held)
      · exact granted .shared (by decide)
    | pending =>
      simp only
      split
      · rename_i held
        exact touched .pending ((hinders_iff (by decide)).mpr held)
      · exact granted .pending (by decide)
    | exclusive =>
      simp only
      split
      · rename_i held
        exact touched .exclusive ((hinders_iff (by decide)).mpr held)
      · split
        · exact granted .pending (by decide)
        · exact granted .exclusive (by decide)

theorem lockSlots_settles (h : LockHolder) (offset n : Nat) (op : SlotLockOp) (t : LockTable) :
    t.Settles h.path.key (h.lockSlots offset n op t).2.2 := by
  rcases locked : h.lockSlots offset n op t with ⟨result, h', t'⟩
  cases lockSlots_correct locked with
  | outside no_range => exact .kept
  | barred range i named bars => exact .kept
  | served range =>
    rw [lockSlots] at locked
    split at locked
    · cases locked
    · cases op with
      | unlockShared | unlockExclusive =>
        cases locked
        exact .settled _
      | lockShared | lockExclusive =>
        simp only at locked
        split at locked <;> cases locked
        exact .settled _

theorem unlock_settles (h : LockHolder) (level : LockLevel) (t : LockTable) :
    t.Settles h.path.key (h.unlock level t).2 := by
  rw [LockHolder.unlock]
  split
  · exact .kept
  · exact .settled _

theorem unlockAllSlots_settles (h : LockHolder) (t : LockTable) :
    t.Settles h.path.key (h.unlockAllSlots t).2 := by
  rw [unlockAllSlots]
  split
  · exact .settled _
  · exact .kept

theorem serve_noIdle (noIdle : t.NoIdle) (h : LockHolder) (request : LockRequest) :
    (h.serve request t).2.2.NoIdle := by
  cases request with
  | lock level => exact noIdle.settles (h.lock_settles level t)
  | unlock level => exact noIdle.settles (h.unlock_settles level t)
  | lockSlots offset n op => exact noIdle.settles (h.lockSlots_settles offset n op t)
  | release =>
    have slots := noIdle.settles (h.unlockAllSlots_settles t)
    exact slots.settles (unlock_settles ..)

end LockHolder

/-! ## Holders that share a table -/

namespace LockHolders

variable {s : LockHolders} {name : String} {key : Path.Key}

theorem give_noIdle (noIdle : s.state.NoIdle) (name : String) : (s.give name).state.NoIdle := by
  cases found : s.find? name with
  | none => rwa [give_of_none found]
  | some h =>
    rw [give_of_find? found]
    exact LockHolder.serve_noIdle noIdle h .release

theorem step_noIdle (noIdle : s.state.NoIdle) (e : LockEvent) : (s.step e).state.NoIdle := by
  cases e with
  | make name path => exact give_noIdle noIdle name
  | ask name request =>
    cases found : s.find? name with
    | none => rwa [step_ask_of_none found]
    | some h =>
      rw [step_ask found]
      exact LockHolder.serve_noIdle noIdle h request
  | drop name => exact give_noIdle noIdle name

theorem run_noIdle (noIdle : s.state.NoIdle) (events : List LockEvent) : (s.run events).state.NoIdle := by
  induction events generalizing s with
  | nil => exact noIdle
  | cons e rest ih => exact ih (step_noIdle noIdle e)

theorem start_noIdle : start.state.NoIdle := nofun

/-- What is held at a path is held by one of its holders. -/
theorem exists_holder_of_held (accounted : s.Accounted) (covered : s.Covered) (exact_ : s.SlotsExact)
    (held : (s.state.locks key).Held) :
    ∃ name h, s.find? name = some h ∧ h.path.key = key ∧ ¬ h.Idle := by
  cases held with
  | reader some =>
    obtain ⟨name, h, found, reads⟩ := Keyed.count_pos_iff.mp (Nat.lt_of_lt_of_le some (covered key))
    obtain ⟨here, reads⟩ := of_decide_eq_true reads
    exact ⟨name, h, found, here, fun idle => LockLevel.not_shared_le_none (idle.level ▸ reads)⟩
  | @owner x o named =>
    obtain ⟨name, h, found, here, -, enough⟩ := accounted.there key x o named
    refine ⟨name, h, found, here, fun idle => LockLevel.not_shared_le_none ?_⟩
    exact (le_of_lt (FileLocks.shared_lt_of_holderAt named)).trans (idle.level ▸ enough)
  | @sharer i some =>
    rw [exact_.counted, sharers] at some
    obtain ⟨name, h, found, shares⟩ := Keyed.count_pos_iff.mp some
    obtain ⟨here, shares⟩ := Bool.and_eq_true_iff.mp shares
    refine ⟨name, h, found, of_decide_eq_true here, fun idle => ?_⟩
    rw [idle.slots] at shares
    cases shares
  | @slotOwner i o named =>
    obtain ⟨name, h, found, here, rfl⟩ := exact_.there key i o named
    have taken := (exact_.owned name h i found).mp (here ▸ named)
    refine ⟨name, h, found, here, fun idle => ?_⟩
    rw [idle.slots] at taken
    cases taken

/-- The table never keeps an idle entry: every path in it has a hold on record, a path whose holders have all
let go is not in it, and with nobody left it is empty. A holder has let go once it is released, and is gone
once it is dropped. -/
theorem run_keeps_no_idle_entry (events : List LockEvent) :
    let s : LockHolders := start.run events
    (∀ key l, s.state.find? key = some l → l.Held) ∧
      (∀ key, (∀ name h, s.find? name = some h → h.path.key = key → h.Idle) → s.state.find? key = none) ∧
        ((∀ name h, s.find? name = some h → h.Idle) → s.state.isEmpty = true) ∧
          ∀ name, (∀ h, (s.step (.ask name .release)).find? name = some h → h.Idle) ∧
            (s.step (.drop name)).find? name = none := by
  intro s
  have noIdle : s.state.NoIdle := run_noIdle start_noIdle events
  have absent (key : Path.Key) (idle : ∀ name h, s.find? name = some h → h.path.key = key → h.Idle) :
      s.state.find? key = none := by
    refine Option.eq_none_iff_forall_ne_some.mpr fun l found => ?_
    have held : (s.state.locks key).Held := by
      rw [LockTable.locks, found]
      exact noIdle key l found
    obtain ⟨name, h, there, here, used⟩ := exists_holder_of_held (run_accounted events) (run_covered events)
      (run_slotsExact start_slotsExact start_accounted events) held
    exact used (idle name h there here)
  refine ⟨noIdle, absent, ?_, ?_⟩
  · intro idle
    exact (Keyed.isEmpty_iff _).mpr fun key => absent key fun name h found _ => idle name h found
  · intro name
    constructor
    · intro h found
      cases there : s.find? name with
      | none =>
        rw [step_ask_of_none there, there] at found
        cases found
      | some g =>
        rw [step_ask there, find?_turned there, if_pos rfl] at found
        cases found
        exact g.release_idle s.state
    · exact (Session.find?_drop ..).trans (if_pos rfl)

end LockHolders
end MappedStorage
