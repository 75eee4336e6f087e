import MappedStorage.Proofs.Locking.Image
import MappedStorage.Proofs.Locking.Slots

/-!
Why a lock is refused. The counter of a path is never above the number of its readers, whatever they do
(`run_covered`), so whoever is refused a level or a slot is refused it because of another holder, which has a
level or a part of the slot (`other_of_lock_busy`, `other_of_lockSlots_busy`). A holder that has let go of
everything (`LockHolder.Idle`) is none of those, and nothing happens when it lets go again.
-/

namespace MappedStorage

/-- Nothing is held. -/
structure LockHolder.Idle (h : LockHolder) : Prop where
  level : h.level = .none
  slots : ∀ i, h.hold i = {}

/-- An owner has the same of the locks in two tables. -/
structure LockTable.SameFor (t t' : LockTable) (o : Owner) : Prop where
  levels : ∀ key x, (t'.locks key).holderAt x = some o ↔ (t.locks key).holderAt x = some o
  slots : ∀ key (i : Fin slotCount),
    ((t'.locks key).slot i).exclusive = some o ↔ ((t.locks key).slot i).exclusive = some o

/-! ## Holders that let go of everything -/

namespace LockHolder

variable {h : LockHolder} {t : LockTable}

theorem release_idle (h : LockHolder) (t : LockTable) : (h.release t).1.Idle :=
  ⟨(h.release_turns t).2, (h.release_slotsTurn t).2⟩

theorem idle_addHolder (t : LockTable) (path : Path) : (t.addHolder path).1.Idle :=
  ⟨rfl, fun i => by simp [LockTable.addHolder, hold]⟩

theorem Idle.unlock (idle : h.Idle) (level : LockLevel) (t : LockTable) : h.unlock level t = (h, t) := by
  rw [LockHolder.unlock, if_pos (idle.level ▸ LockLevel.none_le level)]

theorem Idle.release (idle : h.Idle) (t : LockTable) : h.release t = (h, t) := by
  have none : ¬ (h.sharedSlots.any id || h.exclusiveSlots.any id) = true := by
    simp only [Bool.or_eq_true, Vector.any_eq_true, id, not_or, not_exists]
    exact ⟨fun i inside taken => Bool.false_ne_true
        ((congrArg SlotHold.shared (idle.slots ⟨i, inside⟩)).symm.trans taken),
      fun i inside taken => Bool.false_ne_true
        ((congrArg SlotHold.exclusive (idle.slots ⟨i, inside⟩)).symm.trans taken)⟩
  rw [LockHolder.release, unlockAllSlots, if_neg none]
  exact idle.unlock .none t

/-- A holder of nothing that lets go of slots still holds nothing. -/
theorem Idle.lockSlots (idle : h.Idle) {op : SlotLockOp} (unlocks : op = .unlockShared ∨ op = .unlockExclusive)
    (offset n : Nat) (t : LockTable) : (h.lockSlots offset n op t).2.1.Idle := by
  have forgotten : (h.forgetSlots offset n).Idle := by
    refine ⟨idle.level, fun i => ?_⟩
    rw [hold_forgetSlots, idle.slots, ite_self]
  rw [LockHolder.lockSlots]
  split
  · exact idle
  · obtain rfl | rfl := unlocks <;> exact forgotten

/-- Whoever is made next makes no difference to what is let go of. -/
theorem release_addHolder (h : LockHolder) (t : LockTable) (path : Path) :
    h.release (t.addHolder path).2 = ((h.release t).1, ((h.release t).2.addHolder path).2) := by
  have settle (t : LockTable) (key : Path.Key) (l : FileLocks) :
      (t.addHolder path).2.settle key l = ((t.settle key l).addHolder path).2 := by
    unfold LockTable.settle
    split <;> rfl
  have slots : h.unlockAllSlots (t.addHolder path).2 =
      ((h.unlockAllSlots t).1, ((h.unlockAllSlots t).2.addHolder path).2) := by
    unfold unlockAllSlots
    split
    · exact congrArg (Prod.mk _) (settle ..)
    · rfl
  have levels (h : LockHolder) (t : LockTable) : h.unlock .none (t.addHolder path).2 =
      ((h.unlock .none t).1, ((h.unlock .none t).2.addHolder path).2) := by
    unfold LockHolder.unlock
    split
    · rfl
    · exact congrArg (Prod.mk _) (settle ..)
  unfold LockHolder.release
  rw [slots]
  exact levels ..

/-- Nobody loses a lock, or is given one, where another holder lets go of everything. -/
theorem release_sameFor {o : Owner} (other : o ≠ h.owner) (t : LockTable) :
    t.SameFor (h.release t).2 o := by
  obtain ⟨-, -, l, turn, sets⟩ := (h.release_turns t).1
  obtain ⟨-, -, l', sets', turns⟩ := (h.release_slotsTurn t).1
  constructor
  case levels =>
    intro key x
    by_cases here : key = h.path.key
    · rw [here, sets.here]
      exact turn.holderAt_other_iff other
    · rw [sets.elsewhere here]
  case slots =>
    intro key i
    by_cases here : key = h.path.key
    · rw [here, sets'.here]
      exact (turns i).exclusive_other_iff other
    · rw [sets'.elsewhere here]

end LockHolder

/-! ## The counter of readers -/

/-- The counter counts none but the others and, if it reads, the owner itself. -/
theorem FileLocks.Turn.shared_le {l l' : FileLocks} {me : Owner} {a b : LockLevel}
    (turn : l.Turn me a b l') {others : Nat}
    (covered : l.shared ≤ others + if LockLevel.shared ≤ a then 1 else 0) :
    l'.shared ≤ others + if LockLevel.shared ≤ b then 1 else 0 := by
  cases turn with
  | stays same => rwa [same.shared]
  | granted reads up only free few =>
    rw [if_pos reads]
    by_cases first : b = .shared
    · rw [only first, if_neg (by decide)] at covered
      rw [first]
      exact Nat.succ_le_succ covered
    · have same : (l.grant me b).shared = l.shared := by
        cases b with
        | shared => exact absurd rfl first
        | _ => rfl
      rw [same]
      split at covered <;> omega
  | lowered down readers left =>
    have held : LockLevel.shared ≤ a :=
      LockLevel.none_lt_iff.mp (lt_of_le_of_lt (LockLevel.none_le b) down)
    rw [if_pos held] at covered
    rw [readers]
    split
    · omega
    · rename_i some
      have reads : LockLevel.shared ≤ b :=
        LockLevel.none_lt_iff.mp (lt_of_le_of_ne (LockLevel.none_le b) (Ne.symm some))
      rwa [if_pos reads]

namespace LockHolders

variable {s s' : LockHolders} {name : String} {h : LockHolder} {may : LockLevel → LockLevel → Prop}

/-- No counter is above the number of readers. -/
def Covered (s : LockHolders) : Prop := ∀ key, (s.state.locks key).shared ≤ s.readers key

theorem Covered.moved (covered : s.Covered) (moved : Moved may s s') : s'.Covered := by
  intro key
  cases moved with
  | @turns name h h' t' found turns allowed =>
    obtain ⟨path, owner, l', turn, sets⟩ := turns
    have before := Keyed.count_of_find? found (·.reads key)
    have after : (s.turned name h' t').readers key = _ :=
      Keyed.count_modify found (fun _ => h') (·.reads key)
    have bound := covered key
    rw [readers, before] at bound
    rw [after]
    by_cases here : key = h.path.key
    · subst here
      rw [show (s.turned name h' t').state.locks _ = l' from sets.here]
      simp only [LockHolder.reads, path, true_and, decide_eq_true_eq] at bound ⊢
      exact turn.shared_le bound
    · rw [show (s.turned name h' t').state.locks key = _ from sets.elsewhere here]
      simp only [LockHolder.reads, path, Ne.symm here, false_and, decide_false] at bound ⊢
      exact bound
  | @leaves name h found free =>
    have before := Keyed.count_of_find? found (·.reads key)
    have idle : h.reads key = false := by
      rw [LockHolder.reads, free]
      exact decide_eq_false fun reads => LockLevel.not_shared_le_none reads.2
    rw [idle] at before
    exact Nat.le_trans (covered key) (Nat.le_of_eq before)
  | @joins name path absent =>
    have before := Keyed.count_of_none absent (·.reads key)
    have after := Keyed.count_insert s.objects name
      ({ path, owner := s.state.nextOwner } : LockHolder) (·.reads key)
    refine Nat.le_trans (covered key) ((Nat.le_of_eq before).trans ?_)
    exact Nat.le_trans (Nat.le_add_right ..) (Nat.le_of_eq after.symm)

theorem run_covered (events : List LockEvent) : (start.run events).Covered :=
  run_keeps (fun _ _ => True) Covered.moved (fun _ => trivial) (fun _ _ _ _ _ _ => trivial)
    (follows_true _ events) fun _ => Nat.zero_le _

/-! ## Refusals -/

/-- Whoever is refused a level is refused it because of another holder on the path. -/
theorem other_of_lock_busy (accounted : s.Accounted) (covered : s.Covered) (found : s.find? name = some h)
    {level : LockLevel} (busy : (h.lock level s.state).1 = .error .busy) :
    ∃ other g, other ≠ name ∧ s.find? other = some g ∧ g.path.key = h.path.key ∧ g.level ≠ .none := by
  have other_of_hinders (hinders : (s.state.locks h.path.key).Hinders level h.owner) :
      ∃ other g, other ≠ name ∧ s.find? other = some g ∧ g.path.key = h.path.key ∧ g.level ≠ .none := by
    obtain ⟨o, x, different, named⟩ := hinders.holderAt
    obtain ⟨other, g, there, same, rfl, enough⟩ := accounted.there _ x o named
    refine ⟨other, g, ?_, there, same, fun free => ?_⟩
    · rintro rfl
      rw [found] at there
      cases there
      exact different rfl
    · have above := FileLocks.shared_lt_of_holderAt named
      rw [free] at enough
      exact absurd (lt_of_lt_of_le above enough) (by decide)
  rcases locked : h.lock level s.state with ⟨result, h', t'⟩
  rw [locked] at busy
  cases LockHolder.lock_correct locked with
  | met _ | granted _ _ _ _ => cases busy
  | refused _ hindered _ => exact other_of_hinders hindered
  | waiting _ _ _ many _ =>
    -- More than one reads, so one of them is not the holder itself.
    by_contra nobody
    have alone := Keyed.count_le_one (t := s.objects) (P := (·.reads h.path.key)) name
      fun other g there reads => by
        by_contra different
        obtain ⟨same, reads⟩ := of_decide_eq_true reads
        exact nobody ⟨other, g, different, there, same, fun free =>
          LockLevel.not_shared_le_none (free ▸ reads)⟩
    exact absurd (Nat.lt_of_lt_of_le many (covered h.path.key)) (Nat.not_lt.mpr alone)

/-- The owner of a slot is another where another holder has it alone. -/
theorem heldByOther_slot_iff (accounted : s.Accounted) (exact_ : s.SlotsExact) (found : s.find? name = some h)
    (i : Fin slotCount) :
    FileLocks.heldByOther ((s.state.locks h.path.key).slot i).exclusive h.owner = true ↔
      ∃ other g, other ≠ name ∧ s.find? other = some g ∧ g.path.key = h.path.key ∧
        (g.hold i).exclusive = true := by
  rw [FileLocks.heldByOther_iff]
  constructor
  · rintro ⟨o, different, named⟩
    obtain ⟨other, g, there, same, rfl⟩ := exact_.there _ i o named
    have taken := (exact_.owned other g i there).mp (same ▸ named)
    refine ⟨other, g, ?_, there, same, taken⟩
    rintro rfl
    rw [found] at there
    cases there
    exact different rfl
  · rintro ⟨other, g, different, there, same, taken⟩
    have named := (exact_.owned other g i there).mpr taken
    refine ⟨g.owner, ?_, same ▸ named⟩
    intro owner
    exact different (accounted.distinct other name g h there found owner)

/-- The counter of a slot counts more than a holder itself where another holder shares the slot. -/
theorem share_lt_iff (exact_ : s.SlotsExact) (found : s.find? name = some h) (i : Fin slotCount) :
    (h.hold i).share < ((s.state.locks h.path.key).slot i).shared ↔
      ∃ other g, other ≠ name ∧ s.find? other = some g ∧ g.path.key = h.path.key ∧
        (g.hold i).shared = true := by
  constructor
  · intro more
    by_contra nobody
    have few : ((s.objects.erase name).count fun g =>
        decide (g.path.key = h.path.key) && (g.hold i).shared) = 0 := by
      refine Nat.eq_zero_of_not_pos fun some => ?_
      obtain ⟨other, g, there, shares⟩ := Keyed.count_pos_iff.mp some
      rw [Keyed.find?_erase] at there
      split at there
      · cases there
      · rename_i different
        obtain ⟨same, shares⟩ := Bool.and_eq_true_iff.mp shares
        exact nobody ⟨other, g, different, there, of_decide_eq_true same, shares⟩
    have counted := Keyed.count_of_find? found fun g =>
      decide (g.path.key = h.path.key) && (g.hold i).shared
    rw [exact_.counted, sharers, counted, few] at more
    simp only [decide_true, Bool.true_and, SlotHold.share] at more
    omega
  · rintro ⟨other, g, different, there, same, shares⟩
    by_contra few
    have alone := exact_.not_shared_of_few different found there same (Nat.not_lt.mp few)
    exact Bool.false_ne_true (alone.symm.trans shares)

/-- Whoever is refused slots is refused them because of another holder that has a part of one. -/
theorem other_of_lockSlots_busy (accounted : s.Accounted) (exact_ : s.SlotsExact)
    (found : s.find? name = some h) {offset n : Nat} {op : SlotLockOp}
    (busy : (h.lockSlots offset n op s.state).1 = .error .busy) :
    ∃ other g i, other ≠ name ∧ s.find? other = some g ∧ g.path.key = h.path.key ∧ g.hold i ≠ {} := by
  have other_of_exclusive (i : Fin slotCount)
      (held : FileLocks.heldByOther ((s.state.locks h.path.key).slot i).exclusive h.owner = true) :
      ∃ other g i, other ≠ name ∧ s.find? other = some g ∧ g.path.key = h.path.key ∧ g.hold i ≠ {} := by
    obtain ⟨other, g, different, there, same, taken⟩ := (heldByOther_slot_iff accounted exact_ found i).mp held
    refine ⟨other, g, i, different, there, same, fun free => ?_⟩
    rw [free] at taken
    cases taken
  have other_of_shared (i : Fin slotCount)
      (more : (h.hold i).share < ((s.state.locks h.path.key).slot i).shared) :
      ∃ other g i, other ≠ name ∧ s.find? other = some g ∧ g.path.key = h.path.key ∧ g.hold i ≠ {} := by
    obtain ⟨other, g, different, there, same, shares⟩ := (share_lt_iff exact_ found i).mp more
    refine ⟨other, g, i, different, there, same, fun free => ?_⟩
    rw [free] at shares
    cases shares
  rw [LockHolder.lockSlots] at busy
  split at busy
  · cases busy
  · cases op with
    | unlockShared | unlockExclusive => cases busy
    | lockShared =>
      simp only at busy
      split at busy
      · rename_i held
        obtain ⟨i, -, held⟩ := List.any_eq_true.mp held
        exact other_of_exclusive i (Bool.and_eq_true_iff.mp held).2
      · cases busy
    | lockExclusive =>
      simp only at busy
      split at busy
      · rename_i held
        obtain ⟨i, -, held⟩ := List.any_eq_true.mp held
        obtain exclusive | shared := Bool.or_eq_true_iff.mp (Bool.and_eq_true_iff.mp held).2
        · exact other_of_exclusive i exclusive
        · exact other_of_shared i (of_decide_eq_true shared)
      · cases busy

/-- The table does not name a holder of nothing. -/
theorem unnamed_of_idle (accounted : s.Accounted) (exact_ : s.SlotsExact) (found : s.find? name = some h)
    (idle : h.Idle) : ∀ key, (∀ x, (s.state.locks key).holderAt x ≠ some h.owner) ∧
      ∀ i : Fin slotCount, ((s.state.locks key).slot i).exclusive ≠ some h.owner := by
  refine fun key => ⟨fun x named => ?_, fun i named => ?_⟩
  · obtain ⟨other, g, there, -, same, enough⟩ := accounted.there key x _ named
    obtain rfl := accounted.distinct other name g h there found same
    rw [found] at there
    cases there
    have above := FileLocks.shared_lt_of_holderAt named
    rw [idle.level] at enough
    exact absurd (lt_of_lt_of_le above enough) (by decide)
  · obtain ⟨other, g, there, path, same⟩ := exact_.there key i _ named
    obtain rfl := accounted.distinct other name g h there found same
    rw [found] at there
    cases there
    have taken := (exact_.owned other h i found).mp (path ▸ named)
    rw [idle.slots] at taken
    cases taken

/-- The counter of a path that is right stays so when a holder lets go of everything. -/
theorem shared_release {key : Path.Key} (counted : (s.state.locks key).shared = s.readers key) (name : String) :
    ((s.step (.ask name .release)).state.locks key).shared =
      (s.step (.ask name .release)).readers key := by
  cases found : s.find? name with
  | none =>
    rw [step_ask_of_none found]
    exact counted
  | some h =>
    obtain ⟨turns, level⟩ := h.release_turns s.state
    have steady : Steady h.level (h.release s.state).1.level := level ▸ steady_none h.level
    rw [step_ask found]
    exact shared_turned counted found turns steady

end LockHolders
end MappedStorage
