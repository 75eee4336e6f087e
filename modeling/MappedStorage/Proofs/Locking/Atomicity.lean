import MappedStorage.Proofs.Locking.Refusals

/-!
What a refused request leaves behind. An entry is made before the request is judged, but whoever stands in the
way has one already, so a request that is refused hands back the holder and the table that it was given. The one
exception is a holder that waits for others to stop reading (`LockHolders.WaitsForReaders`). Of a range of slots a
request gets all or none (`LockHolder.lockSlots_correct`), and it gets none exactly where it names a slot
that is not there or one that another holder keeps it from (`LockHolders.Bars`). So slots are counted exactly
in every reachable state, and what a request takes is what the counters say (`LockHolders.run_slots_exact`).
-/

namespace MappedStorage

/-- What is held of a slot once an operation on it has succeeded. -/
def SlotHold.after (a : SlotHold) : SlotLockOp → SlotHold
  | .unlockShared | .unlockExclusive => {}
  | .lockShared => { a with shared := true }
  | .lockExclusive => { a with exclusive := true }

/-- What another holder has of a slot keeps one from an operation on it. -/
def SlotHold.Bars (a : SlotHold) : SlotLockOp → Prop
  | .unlockShared | .unlockExclusive => False
  | .lockShared => a.exclusive = true
  | .lockExclusive => a.exclusive = true ∨ a.shared = true

namespace SlotLocks

open FileLocks (heldByOther without)

/-- The locks of a slot once an operation of `me`, which has `a` of it, has succeeded. -/
def after (s : SlotLocks) (me : Owner) (a : SlotHold) : SlotLockOp → SlotLocks
  | .unlockShared | .unlockExclusive => ⟨s.shared - a.share, without s.exclusive me⟩
  | .lockShared => { s with shared := s.shared + (1 - a.share) }
  | .lockExclusive => { s with exclusive := some me }

/-- The locks of a slot keep `me`, which has `a` of it, from an operation. -/
def Bars (s : SlotLocks) (me : Owner) (a : SlotHold) : SlotLockOp → Prop
  | .unlockShared | .unlockExclusive => False
  | .lockShared => heldByOther s.exclusive me = true
  | .lockExclusive => heldByOther s.exclusive me = true ∨ a.share < s.shared

end SlotLocks

/-! ## Entries made on demand -/

namespace LockTable

variable {t : LockTable} {key : Path.Key}

/-- Where somebody holds something there is an entry already. -/
theorem touch_of_locks_ne (held : t.locks key ≠ {}) : t.touch key = t := by
  rw [touch]
  cases found : t.find? key with
  | none =>
    rw [locks, found] at held
    exact absurd rfl held
  | some l => rfl

end LockTable

theorem FileLocks.Hinders.ne_free {l : FileLocks} {level : LockLevel} {me : Owner}
    (hinders : l.Hinders level me) : l ≠ {} := by
  rintro rfl
  obtain ⟨o, x, -, named⟩ := hinders.holderAt
  cases x <;> cases named

theorem SlotLocks.Bars.ne_free {l : FileLocks} {i : Fin slotCount} {me : Owner} {a : SlotHold}
    {op : SlotLockOp} (bars : (l.slot i).Bars me a op) : l ≠ {} := by
  rintro rfl
  have free : ({} : FileLocks).slot i = {} := by simp [FileLocks.slot]
  rw [free] at bars
  cases op with
  | unlockShared | unlockExclusive => exact bars
  | lockShared => cases bars
  | lockExclusive =>
    obtain other | more := bars
    · cases other
    · exact Nat.not_lt_zero _ more

/-! ## Requests of one holder -/

namespace LockHolder

open FileLocks

variable {h h' : LockHolder} {t t' : LockTable} {level : LockLevel} {e : ProviderError}
  {result : Except ProviderError Unit} {offset n : Nat} {op : SlotLockOp}

/-- What a request for a level that is refused comes to. -/
theorem lock_error (refused : h.lock level t = (.error e, h', t')) : e = .busy ∧
    ((t.locks h.path.key).Hinders level h.owner ∧ h' = h ∧ t' = t ∨
      level = .exclusive ∧ ¬ (t.locks h.path.key).Hinders level h.owner ∧
        1 < (t.locks h.path.key).shared ∧ h' = { h with level := .pending } ∧
        t' = t.insert h.path.key { t.locks h.path.key with pending := some h.owner }) := by
  have untouched (hindered : (t.locks h.path.key).Hinders level h.owner) :
      t.touch h.path.key = t := LockTable.touch_of_locks_ne hindered.ne_free
  rw [lock] at refused
  split at refused
  · cases refused
  · rename_i less
    cases level with
    | none => cases refused
    | reserved =>
      simp only at refused
      split at refused
      · rename_i held
        have hindered := hinders_reserved_iff.mpr held
        rw [untouched hindered] at refused
        cases refused
        exact ⟨rfl, .inl ⟨hindered, rfl, rfl⟩⟩
      · cases refused
    | shared | pending =>
      simp only at refused
      split at refused
      · rename_i held
        rw [untouched ((hinders_iff (by decide)).mpr held)] at refused
        cases refused
        exact ⟨rfl, .inl ⟨(hinders_iff (by decide)).mpr held, rfl, rfl⟩⟩
      · cases refused
    | exclusive =>
      simp only at refused
      split at refused
      · rename_i held
        rw [untouched ((hinders_iff (by decide)).mpr held)] at refused
        cases refused
        exact ⟨rfl, .inl ⟨(hinders_iff (by decide)).mpr held, rfl, rfl⟩⟩
      · rename_i free
        split at refused
        · rename_i many
          cases refused
          have below : h.level ≤ .pending := LockLevel.le_pending_iff.mpr (not_le.mp less)
          refine ⟨rfl, .inr ⟨rfl, ?_, many, ?_, rfl⟩⟩
          · intro hinders
            exact free ((hinders_iff (by decide)).mp hinders)
          · rw [LockLevel.sup, if_pos below]
        · cases refused

/-- What a request for a range of slots comes to. -/
inductive SlotsLocked (h : LockHolder) (offset n : Nat) (op : SlotLockOp) (t : LockTable) :
    Except ProviderError Unit → LockHolder → LockTable → Prop
  | outside (no_range : n = 0 ∨ slotCount < offset + n) :
      SlotsLocked h offset n op t (.error (.slotRange offset n slotCount)) h t
  | barred (range : 0 < n ∧ offset + n ≤ slotCount) (i : Fin slotCount)
      (named : offset ≤ i ∧ i < offset + n)
      (bars : ((t.locks h.path.key).slot i).Bars h.owner (h.hold i) op) :
      SlotsLocked h offset n op t (.error .busy) h t
  | served {h' : LockHolder} {t' : LockTable} {l' : FileLocks} (range : 0 < n ∧ offset + n ≤ slotCount)
      (free : ∀ i : Fin slotCount, offset ≤ i ∧ i < offset + n →
        ¬ ((t.locks h.path.key).slot i).Bars h.owner (h.hold i) op)
      (path : h'.path = h.path) (owner : h'.owner = h.owner) (level : h'.level = h.level)
      (hold : ∀ i : Fin slotCount, h'.hold i =
        if offset ≤ i ∧ i < offset + n then (h.hold i).after op else h.hold i)
      (sets : t.Sets h.path.key l' t') (levels : (t.locks h.path.key).SameLevels l')
      (slot : ∀ i : Fin slotCount, l'.slot i =
        if offset ≤ i ∧ i < offset + n then
          ((t.locks h.path.key).slot i).after h.owner (h.hold i) op
        else (t.locks h.path.key).slot i) :
      SlotsLocked h offset n op t (.ok ()) h' t'

/-- A slot of a range bars a request where the check finds one that does. -/
theorem exists_bars_iff {cond : Fin slotCount → Bool}
    (bars : ∀ i, cond i = true ↔ ((t.locks h.path.key).slot i).Bars h.owner (h.hold i) op) :
    anySlot offset n cond = true ↔ ∃ i : Fin slotCount, (offset ≤ i ∧ i < offset + n) ∧
      ((t.locks h.path.key).slot i).Bars h.owner (h.hold i) op := by
  simp only [anySlot, List.any_eq_true, List.mem_finRange, true_and, Bool.and_eq_true, inRange_iff, bars]

/-- All slots of a range are locked or unlocked, or nothing changes. -/
theorem lockSlots_correct (locked : h.lockSlots offset n op t = (result, h', t')) :
    h.SlotsLocked offset n op t result h' t' := by
  rw [lockSlots] at locked
  split at locked
  · rename_i no_range
    cases locked
    exact .outside no_range
  · rename_i inside
    have range : 0 < n ∧ offset + n ≤ slotCount := by omega
    have untouched (barred : ∃ i : Fin slotCount, (offset ≤ i ∧ i < offset + n) ∧
        ((t.locks h.path.key).slot i).Bars h.owner (h.hold i) op) : t.touch h.path.key = t := by
      obtain ⟨i, -, bars⟩ := barred
      exact LockTable.touch_of_locks_ne bars.ne_free
    cases op with
    | unlockShared | unlockExclusive =>
      cases locked
      refine .served range (fun _ _ => id) rfl rfl rfl ?_ (LockTable.sets_settle ..) (sameLevels_slots ..) ?_
      · intro i
        simp only [hold_forgetSlots, inRange_iff]
        rfl
      · intro i
        simp only [slot_freeSlots, inRange_iff]
        rfl
    | lockShared =>
      have bars (i : Fin slotCount) : heldByOther ((t.locks h.path.key).slot i).exclusive h.owner = true ↔
          ((t.locks h.path.key).slot i).Bars h.owner (h.hold i) .lockShared := Iff.rfl
      simp only at locked
      split at locked
      · rename_i held
        have barred := (exists_bars_iff bars).mp held
        rw [untouched barred] at locked
        cases locked
        obtain ⟨i, named, bars⟩ := barred
        exact .barred range i named bars
      · rename_i free
        cases locked
        refine .served range ?_ rfl rfl rfl ?_ (LockTable.sets_settle ..) (sameLevels_slots ..) ?_
        · intro i named barred
          exact free ((exists_bars_iff bars).mpr ⟨i, named, barred⟩)
        · intro i
          simp only [hold, getElem_onRange, inRange_iff]
          split <;> rfl
        · intro i
          simp only [FileLocks.slot, getElem_onRange, inRange_iff]
          rfl
    | lockExclusive =>
      have bars (i : Fin slotCount) : (heldByOther ((t.locks h.path.key).slot i).exclusive h.owner ||
          decide (h.sharedShare i < ((t.locks h.path.key).slot i).shared)) = true ↔
          ((t.locks h.path.key).slot i).Bars h.owner (h.hold i) .lockExclusive := by
        rw [Bool.or_eq_true, decide_eq_true_iff]
        rfl
      simp only at locked
      split at locked
      · rename_i held
        have barred := (exists_bars_iff bars).mp held
        rw [untouched barred] at locked
        cases locked
        obtain ⟨i, named, bars⟩ := barred
        exact .barred range i named bars
      · rename_i free
        cases locked
        refine .served range ?_ rfl rfl rfl ?_ (LockTable.sets_settle ..) (sameLevels_slots ..) ?_
        · intro i named barred
          exact free ((exists_bars_iff bars).mpr ⟨i, named, barred⟩)
        · intro i
          simp only [hold, getElem_onRange, inRange_iff]
          split <;> rfl
        · intro i
          simp only [FileLocks.slot, getElem_onRange, inRange_iff]
          rfl

end LockHolder

/-! ## Holders that share a table -/

namespace LockHolders

/-- Another holder keeps `name` from an operation on a slot of the path. -/
def Bars (s : LockHolders) (name : String) (h : LockHolder) (op : SlotLockOp) (i : Fin slotCount) : Prop :=
  ∃ other g, other ≠ name ∧ s.find? other = some g ∧ g.path.key = h.path.key ∧ (g.hold i).Bars op

/-- A holder waits at the pending level for others to stop reading, and nothing else has changed. -/
structure WaitsForReaders (s : LockHolders) (name : String) (h : LockHolder) (s' : LockHolders) : Prop where
  readers : ∃ other g, other ≠ name ∧ s.find? other = some g ∧ g.path.key = h.path.key ∧ .shared ≤ g.level
  own : s'.find? name = some { h with level := .pending }
  others : ∀ other, other ≠ name → s'.find? other = s.find? other
  entry : s'.state.find? h.path.key = some { s.state.locks h.path.key with pending := some h.owner }
  elsewhere : ∀ key, key ≠ h.path.key → s'.state.find? key = s.state.find? key
  nextOwner : s'.state.nextOwner = s.state.nextOwner

/-- A request of a holder has succeeded on all slots of a range, and nothing else has changed. -/
structure TakesAll (s : LockHolders) (name : String) (h : LockHolder) (offset n : Nat) (op : SlotLockOp)
    (s' : LockHolders) : Prop where
  own : ∃ h', s'.find? name = some h' ∧ h'.path = h.path ∧ h'.owner = h.owner ∧ h'.level = h.level ∧
    ∀ i : Fin slotCount, h'.hold i =
      if offset ≤ i ∧ i < offset + n then (h.hold i).after op else h.hold i
  others : ∀ other, other ≠ name → s'.find? other = s.find? other
  levels : (s.state.locks h.path.key).SameLevels (s'.state.locks h.path.key)
  slots : ∀ i : Fin slotCount, (s'.state.locks h.path.key).slot i =
    if offset ≤ i ∧ i < offset + n then
      ((s.state.locks h.path.key).slot i).after h.owner (h.hold i) op
    else (s.state.locks h.path.key).slot i
  elsewhere : ∀ key, key ≠ h.path.key → s'.state.locks key = s.state.locks key
  nextOwner : s'.state.nextOwner = s.state.nextOwner

variable {s : LockHolders} {name : String} {h : LockHolder}

/-- A request that hands back the holder and the table it was given. -/
theorem step_ask_unchanged {request : LockRequest} (found : s.find? name = some h)
    (holder : (h.serve request s.state).2.1 = h) (table : (h.serve request s.state).2.2 = s.state) :
    s.step (.ask name request) = s := by
  rw [step_ask found, holder, table, turned, Session.update_of_find? found]

/-- The table bars a holder from a slot where another holder does. -/
theorem bars_iff (accounted : s.Accounted) (exact_ : s.SlotsExact) (found : s.find? name = some h)
    (op : SlotLockOp) (i : Fin slotCount) :
    ((s.state.locks h.path.key).slot i).Bars h.owner (h.hold i) op ↔ s.Bars name h op i := by
  have alone := heldByOther_slot_iff accounted exact_ found i
  have shares := share_lt_iff exact_ found i
  cases op with
  | unlockShared | unlockExclusive =>
    refine iff_of_false id ?_
    rintro ⟨other, g, different, there, same, bars⟩
    exact bars
  | lockShared => exact alone
  | lockExclusive =>
    rw [SlotLocks.Bars, alone, shares]
    constructor
    · rintro (⟨other, g, different, there, same, taken⟩ | ⟨other, g, different, there, same, shared⟩)
      · exact ⟨other, g, different, there, same, .inl taken⟩
      · exact ⟨other, g, different, there, same, .inr shared⟩
    · rintro ⟨other, g, different, there, same, taken | shared⟩
      · exact .inl ⟨other, g, different, there, same, taken⟩
      · exact .inr ⟨other, g, different, there, same, shared⟩

/-- More than one on the counter is more than the holder itself. -/
theorem exists_reader (covered : s.Covered) (many : 1 < (s.state.locks h.path.key).shared) :
    ∃ other g, other ≠ name ∧ s.find? other = some g ∧ g.path.key = h.path.key ∧ .shared ≤ g.level := by
  by_contra nobody
  have alone : s.readers h.path.key ≤ 1 := by
    refine Keyed.count_le_one name fun other g there reads => ?_
    by_contra different
    obtain ⟨same, reads⟩ := of_decide_eq_true reads
    exact nobody ⟨other, g, different, there, same, reads⟩
  have counted := covered h.path.key
  omega

theorem step_lock_refused (covered : s.Covered) (found : s.find? name = some h) {level : LockLevel}
    {e : ProviderError} (refused : (h.lock level s.state).1 = .error e) :
    let s' : LockHolders := s.step (.ask name (.lock level))
    e = .busy ∧
    (level ≠ .exclusive ∨ (s.state.locks h.path.key).Hinders .exclusive h.owner → s' = s) ∧
    (level = .exclusive → ¬ (s.state.locks h.path.key).Hinders .exclusive h.owner →
      s.WaitsForReaders name h s') := by
  intro s'
  rcases locked : h.lock level s.state with ⟨result, h', t'⟩
  obtain rfl : result = .error e := by rw [locked] at refused; exact refused
  obtain ⟨rfl, ⟨hindered, rfl, rfl⟩ | ⟨rfl, free, many, rfl, rfl⟩⟩ := LockHolder.lock_error locked
  · refine ⟨rfl, fun _ => ?_, ?_⟩
    · exact step_ask_unchanged found (congrArg (·.2.1) locked) (congrArg (·.2.2) locked)
    · rintro rfl free
      exact absurd hindered free
  · refine ⟨rfl, ?_, fun _ _ => ?_⟩
    · rintro (other | hinders)
      · exact absurd rfl other
      · exact absurd hinders free
    · have stepped : s' = s.turned name { h with level := .pending }
          (s.state.insert h.path.key { s.state.locks h.path.key with pending := some h.owner }) := by
        simp only [s', step_ask found, LockHolder.serve, locked]
      rw [stepped]
      refine ⟨exists_reader covered many, ?_, ?_, ?_, ?_, rfl⟩
      · exact (find?_turned found ..).trans (if_pos rfl)
      · intro other different
        exact (find?_turned found ..).trans (if_neg different)
      · exact (Keyed.find?_insert ..).trans (if_pos rfl)
      · intro key different
        exact (Keyed.find?_insert ..).trans (if_neg different)

theorem step_lockSlots (accounted : s.Accounted) (exact_ : s.SlotsExact) (found : s.find? name = some h)
    (offset n : Nat) (op : SlotLockOp) :
    let s' : LockHolders := s.step (.ask name (.lockSlots offset n op))
    let result := (h.lockSlots offset n op s.state).1
    ((n = 0 ∨ slotCount < offset + n) ∧ result = .error (.slotRange offset n slotCount) ∧ s' = s) ∨
    ((0 < n ∧ offset + n ≤ slotCount) ∧
      (∃ i : Fin slotCount, (offset ≤ i ∧ i < offset + n) ∧ s.Bars name h op i) ∧
      result = .error .busy ∧ s' = s) ∨
    ((0 < n ∧ offset + n ≤ slotCount) ∧
      (∀ i : Fin slotCount, offset ≤ i ∧ i < offset + n → ¬ s.Bars name h op i) ∧
      result = .ok () ∧ s.TakesAll name h offset n op s') := by
  intro s' result
  rcases locked : h.lockSlots offset n op s.state with ⟨r, h', t'⟩
  have result_eq : result = r := congrArg (·.1) locked
  have unchanged (holder : h' = h) (table : t' = s.state) : s' = s :=
    step_ask_unchanged found ((congrArg (·.2.1) locked).trans holder) ((congrArg (·.2.2) locked).trans table)
  cases LockHolder.lockSlots_correct locked with
  | outside no_range => exact .inl ⟨no_range, result_eq, unchanged rfl rfl⟩
  | barred range i named bars =>
    have barred : s.Bars name h op i := (bars_iff accounted exact_ found op i).mp bars
    exact .inr (.inl ⟨range, ⟨i, named, barred⟩, result_eq, unchanged rfl rfl⟩)
  | @served _ _ l' range free path owner level hold sets levels slot =>
    refine .inr (.inr ⟨range, ?_, result_eq, ?_⟩)
    · intro i named barred
      exact free i named ((bars_iff accounted exact_ found op i).mpr barred)
    · have stepped : s' = s.turned name h' t' := by
        simp only [s', step_ask found, LockHolder.serve, locked]
      have here : (s.turned name h' t').state.locks h.path.key = l' := sets.here
      rw [stepped]
      refine ⟨⟨h', ?_, path, owner, level, hold⟩, ?_, ?_, ?_, ?_, sets.nextOwner⟩
      · exact (find?_turned found ..).trans (if_pos rfl)
      · intro other different
        exact (find?_turned found ..).trans (if_neg different)
      · rw [here]
        exact levels
      · intro i
        rw [here]
        exact slot i
      · intro key different
        exact sets.elsewhere different

/-- In every reachable state a refused request leaves all holders and the table as they are, but that a holder
kept from the exclusive level by nobody but readers waits at the pending level. Of the slots of a range a request
gets all or, exactly where the range is none or another holder bars one of them, none. -/
theorem run_refusals_leave_no_trace (events : List LockEvent) :
    let s : LockHolders := start.run events
    ∀ name h, s.find? name = some h →
      (∀ level e, (h.lock level s.state).1 = .error e →
        let s' : LockHolders := s.step (.ask name (.lock level))
        e = .busy ∧
        (level ≠ .exclusive ∨ (s.state.locks h.path.key).Hinders .exclusive h.owner → s' = s) ∧
        (level = .exclusive → ¬ (s.state.locks h.path.key).Hinders .exclusive h.owner →
          s.WaitsForReaders name h s')) ∧
      ∀ offset n op,
        let s' : LockHolders := s.step (.ask name (.lockSlots offset n op))
        let result := (h.lockSlots offset n op s.state).1
        ((n = 0 ∨ slotCount < offset + n) ∧ result = .error (.slotRange offset n slotCount) ∧ s' = s) ∨
        ((0 < n ∧ offset + n ≤ slotCount) ∧
          (∃ i : Fin slotCount, (offset ≤ i ∧ i < offset + n) ∧ s.Bars name h op i) ∧
          result = .error .busy ∧ s' = s) ∨
        ((0 < n ∧ offset + n ≤ slotCount) ∧
          (∀ i : Fin slotCount, offset ≤ i ∧ i < offset + n → ¬ s.Bars name h op i) ∧
          result = .ok () ∧ s.TakesAll name h offset n op s') := by
  intro s name h found
  have accounted : s.Accounted := run_accounted events
  have exact_ : s.SlotsExact := run_slotsExact start_slotsExact start_accounted events
  have covered : s.Covered := run_covered events
  constructor
  · intro level e refused
    exact step_lock_refused covered found refused
  · intro offset n op
    exact step_lockSlots accounted exact_ found offset n op

/-- For instance one of two readers that asks for the exclusive level, which stays pending. -/
theorem second_reader_waits :
    let path : Path := ⟨[0x2F, 0x78]⟩
    let s : LockHolders := start.run [.make "a" path, .make "b" path, .ask "a" (.lock .shared),
      .ask "b" (.lock .shared)]
    let h : LockHolder := { path, owner := 1, level := .shared }
    s.find? "b" = some h ∧ (h.lock .exclusive s.state).1 = .error .busy ∧
      s.WaitsForReaders "b" h (s.step (.ask "b" (.lock .exclusive))) := by
  intro path s h
  have found : s.find? "b" = some h := by cbv
  have refused : (h.lock .exclusive s.state).1 = .error .busy := by cbv
  have free : ¬ (s.state.locks h.path.key).Hinders .exclusive h.owner := by
    rw [FileLocks.hinders_iff (by decide)]
    cbv
    decide
  exact ⟨found, refused, ((run_refusals_leave_no_trace _ "b" h found).1 .exclusive .busy refused).2.2 rfl free⟩

/-- A request is granted exactly where no other holder bars a slot of the range, and takes all of it then. -/
theorem lockSlots_granted (accounted : s.Accounted) (exact_ : s.SlotsExact) (found : s.find? name = some h)
    (offset n : Nat) (op : SlotLockOp) :
    ((h.lockSlots offset n op s.state).1 = .ok () ↔ (0 < n ∧ offset + n ≤ slotCount) ∧
      ∀ i : Fin slotCount, offset ≤ i ∧ i < offset + n → ¬ s.Bars name h op i) ∧
    ((h.lockSlots offset n op s.state).1 = .ok () →
      s.TakesAll name h offset n op (s.step (.ask name (.lockSlots offset n op)))) := by
  obtain ⟨no_range, refused, -⟩ | ⟨-, ⟨i, named, barred⟩, refused, -⟩ | ⟨range, free, granted, takes⟩ :=
    step_lockSlots accounted exact_ found offset n op
  · rw [refused]
    refine ⟨iff_of_false nofun ?_, nofun⟩
    rintro ⟨range, -⟩
    omega
  · rw [refused]
    refine ⟨iff_of_false nofun ?_, nofun⟩
    rintro ⟨-, free⟩
    exact free i named barred
  · exact ⟨iff_of_true granted ⟨range, free⟩, fun _ => takes⟩

/-- After every run the counter of each slot is the number of holders that share it, its owner is the
holder that has it alone, and no other holder has any part of it then. A holder is told from others by a number
below the count of those that were made. A range is refused, with nothing changed, where it is empty, its end is
not a word, or it lies past the last slot; any other request to unlock takes away what the holder has of the
named slots and nothing else, and the counter has what is taken from it. A request to lock is granted exactly
where no other holder bars it from a slot of the range, and then takes all of them. -/
theorem run_slots_exact (events : List LockEvent) :
    let s : LockHolders := start.run events
    s.SlotsExact ∧
    (∀ name name' h h' (i : Fin slotCount), name' ≠ name → s.find? name = some h →
      s.find? name' = some h' → h'.path.key = h.path.key → (h.hold i).exclusive = true →
      h'.hold i = {}) ∧
    (∀ name h, s.find? name = some h → h.owner < events.countP LockEvent.makes ∧
      ∀ i : Fin slotCount, (h.hold i).share ≤ ((s.state.locks h.path.key).slot i).shared) ∧
    ∀ name h offset n op, s.find? name = some h →
      (h.lockSlots offset n op s.state = (.error (.slotRange offset n slotCount), h, s.state) ↔
        ¬ ∃ stop, Word.add? offset n = some stop ∧ 0 < n ∧ stop ≤ slotCount) ∧
      (op = .unlockShared ∨ op = .unlockExclusive → 0 < n ∧ offset + n ≤ slotCount →
        (h.lockSlots offset n op s.state).1 = .ok () ∧
          s.SlotsFreed name h (fun i => offset ≤ i ∧ i < offset + n)
            (s.step (.ask name (.lockSlots offset n op)))) ∧
      ((h.lockSlots offset n op s.state).1 = .ok () ↔ (0 < n ∧ offset + n ≤ slotCount) ∧
        ∀ i : Fin slotCount, offset ≤ i ∧ i < offset + n → ¬ s.Bars name h op i) ∧
      ((h.lockSlots offset n op s.state).1 = .ok () →
        s.TakesAll name h offset n op (s.step (.ask name (.lockSlots offset n op)))) := by
  have exact_ := run_slotsExact start_slotsExact start_accounted events
  have accounted := run_accounted events
  refine ⟨exact_, ?_, ?_, ?_⟩
  · intro name name' h h' i different found found' same taken
    exact exact_.hold_of_exclusive accounted different found found' same taken
  · intro name h found
    exact ⟨owner_lt_of_run found, exact_.share_le found⟩
  · intro name h offset n op found
    exact ⟨LockHolder.lockSlots_range_iff, fun unlocks inside =>
      step_unlockSlots exact_ found unlocks inside, lockSlots_granted accounted exact_ found offset n op⟩

/-- For instance a second holder that shares one of the slots of a first, which then counts two. -/
theorem second_share_granted :
    let path : Path := ⟨[0x2F, 0x78]⟩
    let s : LockHolders := start.run [.make "a" path, .make "b" path, .ask "a" (.lockSlots 3 2 .lockShared)]
    let h : LockHolder := { path, owner := 1 }
    let s' : LockHolders := s.step (.ask "b" (.lockSlots 3 1 .lockShared))
    s.find? "b" = some h ∧ (h.lockSlots 3 1 .lockShared s.state).1 = .ok () ∧
      s.TakesAll "b" h 3 1 .lockShared s' ∧ (s'.state.locks path.key).slot ⟨3, by decide⟩ = ⟨2, none⟩ := by
  intro path s h s'
  have found : s.find? "b" = some h := by decide +kernel
  have granted : (h.lockSlots 3 1 .lockShared s.state).1 = .ok () := by decide +kernel
  have counted : (s'.state.locks path.key).slot ⟨3, by decide⟩ = ⟨2, none⟩ := by decide +kernel
  obtain ⟨-, -, -, takes⟩ := (run_slots_exact _).2.2.2 "b" h 3 1 .lockShared found
  exact ⟨found, granted, takes granted, counted⟩

end LockHolders
end MappedStorage
