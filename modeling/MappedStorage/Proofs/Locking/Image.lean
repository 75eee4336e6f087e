import Mathlib
import MappedStorage.Proofs.Locking.Run

/-!
The table of locks as an image of the levels held. It is exact (`LockHolders.Exact`) until the first
request that leaps (`LockLevel.Leap`): one that passes from no lock over the shared level, which is
then not counted, or that falls to a level above the shared one, where the holder is no longer named.
A run of requests that never leap is exact throughout, and a leap always ends that
(`run_exact_iff`).
-/

namespace MappedStorage

/-- The level goes up without a stop at the shared one, or down and not as far as that. -/
def LockLevel.Leap (a b : LockLevel) : Prop := .shared < b ∧ (a = .none ∨ b < a)

instance (a b : LockLevel) : Decidable (LockLevel.Leap a b) :=
  inferInstanceAs (Decidable (_ ∧ (_ ∨ _)))

/-- The holder reads a path. -/
def LockHolder.reads (h : LockHolder) (key : Path.Key) : Bool :=
  decide (h.path.key = key ∧ LockLevel.shared ≤ h.level)

namespace FileLocks

/-- An owner is named as its level has it. -/
structure Records (l : FileLocks) (me : Owner) (level : LockLevel) : Prop where
  reserved : level = .reserved → l.reserved = some me
  pending : l.pending = some me ↔ .pending ≤ level
  exclusive : l.exclusive = some me ↔ level = .exclusive

variable {l l' : FileLocks} {me o : Owner} {a b x : LockLevel}

/-- An owner that may at most read is recorded when it is not named. -/
theorem records_of_le_shared (low : x ≤ .shared)
    (unnamed : ∀ y, l.holderAt y = some me → y ≤ x) : l.Records me x := by
  have never (y : LockLevel) (above : .shared < y) : l.holderAt y ≠ some me := by
    intro named
    exact absurd (lt_of_lt_of_le above (le_trans (unnamed y named) low)) (lt_irrefl _)
  refine ⟨?_, ?_, ?_⟩
  · rintro rfl
    exact absurd low (by decide)
  · refine iff_of_false (never .pending (by decide)) fun high => ?_
    exact absurd (le_trans high low) (by decide)
  · refine iff_of_false (never .exclusive (by decide)) ?_
    rintro rfl
    exact absurd low (by decide)

theorem Turn.records_other (turn : l.Turn me a b l') (other : o ≠ me) (records : l.Records o x) :
    l'.Records o x := by
  have same (y : LockLevel) : l'.holderAt y = some o ↔ l.holderAt y = some o :=
    turn.holderAt_other_iff other
  refine ⟨?_, ?_, ?_⟩
  · intro reserved
    exact (same .reserved).mpr (records.reserved reserved)
  · exact (same .pending).trans records.pending
  · exact (same .exclusive).trans records.exclusive

theorem Turn.records (turn : l.Turn me a b l') (steady : ¬ a.Leap b)
    (named : ∀ y, l.holderAt y = some me → y ≤ a) (records : l.Records me a) :
    l'.Records me b := by
  by_cases low : b ≤ .shared
  · exact records_of_le_shared low fun y => turn.le_of_holderAt named
  · cases turn with
    | stays same =>
      refine ⟨?_, ?_, ?_⟩
      · intro reserved
        exact (same.holderAt .reserved).trans (records.reserved reserved)
      · exact (iff_of_eq (congrArg (· = some me) (same.holderAt .pending))).trans records.pending
      · exact (iff_of_eq (congrArg (· = some me) (same.holderAt .exclusive))).trans records.exclusive
    | granted reads up counted free few =>
      cases b with
      | none | shared => exact absurd (by decide) low
      | reserved =>
        refine ⟨fun _ => rfl, ?_, ?_⟩
        · refine iff_of_false (fun pending => ?_) (by decide)
          exact absurd (le_trans (named .pending pending) up) (by decide)
        · refine iff_of_false (fun exclusive => ?_) (by decide)
          exact absurd (le_trans (named .exclusive exclusive) up) (by decide)
      | pending =>
        refine ⟨nofun, iff_of_true rfl (by decide), ?_⟩
        refine iff_of_false (fun exclusive => ?_) (by decide)
        exact absurd (le_trans (named .exclusive exclusive) up) (by decide)
      | exclusive => exact ⟨nofun, iff_of_true rfl (by decide), iff_of_true rfl rfl⟩
    | lowered down readers left => exact absurd ⟨not_le.mp low, .inr down⟩ steady

theorem Turn.exclusive_iff (turn : l.Turn me a b l')
    (named : ∀ y, l.holderAt y = some me → y ≤ a) (alone : l.exclusive = some me ↔ a = .exclusive) :
    l'.exclusive = some me ↔ b = .exclusive := by
  constructor
  · intro exclusive
    exact LockLevel.exclusive_le_iff.mp (turn.le_of_holderAt (x := .exclusive) named exclusive)
  · rintro rfl
    cases turn with
    | stays same => exact (same.holderAt .exclusive).trans (alone.mpr rfl)
    | granted reads up counted free few => rfl
    | lowered down readers left => exact absurd down (not_lt_of_ge (LockLevel.le_exclusive a))

/-- The counter follows a level that does not leap. -/
theorem Turn.shared_add (turn : l.Turn me a b l') (steady : ¬ a.Leap b)
    (counted : .shared ≤ a → 0 < l.shared) :
    l'.shared + (if LockLevel.shared ≤ a then 1 else 0) =
      l.shared + if LockLevel.shared ≤ b then 1 else 0 := by
  cases turn with
  | stays same => rw [same.shared]
  | granted reads up only free few =>
    rw [if_pos reads]
    by_cases first : b = .shared
    · rw [only first, first]
      rfl
    · have above : LockLevel.shared < b := lt_of_le_of_ne reads (Ne.symm first)
      have held : LockLevel.shared ≤ a :=
        LockLevel.none_lt_iff.mp (lt_of_le_of_ne (LockLevel.none_le a)
          fun none => steady ⟨above, .inl none.symm⟩)
      rw [if_pos held]
      cases b with
      | shared => exact absurd rfl first
      | _ => rfl
  | lowered down readers left =>
    have held : LockLevel.shared ≤ a :=
      LockLevel.none_lt_iff.mp (lt_of_le_of_lt (LockLevel.none_le b) down)
    have positive := counted held
    rw [readers, if_pos held]
    by_cases last : b = .none
    · rw [if_pos last, last, if_neg (by decide)]
      omega
    · have reads : LockLevel.shared ≤ b :=
        LockLevel.none_lt_iff.mp (lt_of_le_of_ne (LockLevel.none_le b) (Ne.symm last))
      rw [if_neg last, if_pos reads]

/-- A leap up is not counted, and after a leap down the level held is not recorded. -/
theorem Turn.of_leap (turn : l.Turn me a b l') (leap : a.Leap b) :
    a = .none ∧ .shared ≤ b ∧ l'.shared = l.shared ∨ ¬ l'.Records me b := by
  obtain ⟨high, up | down⟩ := leap
  · left
    subst up
    refine ⟨rfl, le_of_lt high, ?_⟩
    cases turn with
    | stays same => exact same.shared
    | granted reads up counted free few =>
      cases b with
      | shared => exact absurd high (by decide)
      | _ => rfl
    | lowered down readers left => exact absurd down (not_lt_of_ge (LockLevel.none_le b))
  · right
    cases turn with
    | stays same => exact absurd down (lt_irrefl _)
    | granted reads up counted free few => exact absurd (lt_of_lt_of_le down up) (lt_irrefl _)
    | lowered down readers left =>
      have gone (x : LockLevel) : l'.holderAt x ≠ some me := by
        rw [left, if_pos (lt_trans high down)]
        intro named
        exact (without_eq_some_iff.mp named).2 rfl
      intro records
      cases b with
      | none | shared => exact absurd high (by decide)
      | reserved => exact gone .reserved (records.reserved rfl)
      | pending => exact gone .pending (records.pending.mpr (by decide))
      | exclusive => exact gone .exclusive (records.exclusive.mpr rfl)

end FileLocks

namespace LockHolders

/-- How many holders read a path. -/
def readers (s : LockHolders) (key : Path.Key) : Nat := s.objects.count (·.reads key)

/-- The table is an image of the levels held. -/
structure Exact (s : LockHolders) : Prop where
  readers : ∀ key, (s.state.locks key).shared = s.readers key
  recorded : s.Each FileLocks.Records

/-- An event is a request whose holder leaps. -/
def Leaps (s : LockHolders) (e : LockEvent) : Prop :=
  ∃ name request h, e = .ask name request ∧ s.find? name = some h ∧
    h.level.Leap (h.serve request s.state).2.1.level

/-- The levels change without a leap. -/
def Steady (a b : LockLevel) : Prop := ¬ a.Leap b

variable {s s' : LockHolders} {name : String} {h h' : LockHolder} {e : LockEvent} {t' : LockTable}
  {key : Path.Key}

theorem steady_none (a : LockLevel) : Steady a .none := by
  rintro ⟨above, -⟩
  exact absurd above (by decide)

theorem start_exact : start.Exact := ⟨fun _ => rfl, nofun⟩

theorem readers_pos (found : s.find? name = some h) (reads : .shared ≤ h.level) :
    0 < s.readers h.path.key :=
  Keyed.count_pos_iff.mpr ⟨name, h, found, decide_eq_true ⟨rfl, reads⟩⟩

theorem readers_turned (found : s.find? name = some h) (h' : LockHolder) (t' : LockTable)
    (key : Path.Key) :
    (s.turned name h' t').readers key + (if h.reads key then 1 else 0) =
      s.readers key + if h'.reads key then 1 else 0 := by
  have before := Keyed.count_of_find? found (·.reads key)
  have after := Keyed.count_modify found (fun _ => h') (·.reads key)
  rw [readers, readers, before]
  exact (congrArg (· + _) after).trans (Nat.add_right_comm ..)

/-- The counter of a path stays right as long as nobody leaps. -/
theorem shared_turned (counted : (s.state.locks key).shared = s.readers key) (found : s.find? name = some h)
    (turns : h.Turns s.state h' t') (steady : Steady h.level h'.level) :
    ((s.turned name h' t').state.locks key).shared = (s.turned name h' t').readers key := by
  obtain ⟨path, owner, l', turn, sets⟩ := turns
  have counts := readers_turned found h' t' key
  rw [← counted] at counts
  by_cases here : key = h.path.key
  · subst here
    rw [show (s.turned name h' t').state.locks _ = l' from sets.here]
    have moved := turn.shared_add steady fun reads => counted ▸ readers_pos found reads
    simp only [LockHolder.reads, path, true_and, decide_eq_true_eq] at counts
    omega
  · rw [show (s.turned name h' t').state.locks key = _ from sets.elsewhere here]
    simp only [LockHolder.reads, path, Ne.symm here, false_and, decide_false] at counts
    exact counts.symm

theorem Exact.moved (exact_ : s.Exact) (accounted : s.Accounted) (moved : Moved Steady s s') :
    s'.Exact := by
  refine ⟨?_, ?_⟩
  · intro key
    cases moved with
    | turns found turns steady => exact shared_turned (exact_.readers key) found turns steady
    | @leaves name h found free =>
      have before := Keyed.count_of_find? found (·.reads key)
      have idle : h.reads key = false := by
        rw [LockHolder.reads, free]
        exact decide_eq_false fun reads => LockLevel.not_shared_le_none reads.2
      rw [idle] at before
      exact (exact_.readers key).trans before
    | @joins name path absent =>
      have before := Keyed.count_of_none absent (·.reads key)
      have after := Keyed.count_insert s.objects name
        ({ path, owner := s.state.nextOwner } : LockHolder) (·.reads key)
      have idle : ({ path, owner := s.state.nextOwner } : LockHolder).reads key = false :=
        decide_eq_false fun reads => LockLevel.not_shared_le_none reads.2
      rw [idle, ← before] at after
      exact (exact_.readers key).trans after.symm
  · refine exact_.recorded.moved accounted moved ?_ ?_ ?_
    · intro l l' me a b turn steady named records
      exact turn.records steady named records
    · intro l l' me o a b x turn other records
      exact turn.records_other other records
    · intro l o unnamed
      exact FileLocks.records_of_le_shared (by decide) fun x named => absurd named (unnamed x)

theorem not_exact_of_leaps (exact_ : s.Exact) (leaps : s.Leaps e) : ¬ (s.step e).Exact := by
  obtain ⟨name, request, h, rfl, found, leap⟩ := leaps
  intro after
  rw [step_ask found] at after
  obtain ⟨path, owner, l', turn, sets⟩ := h.serve_turns request s.state
  generalize (h.serve request s.state).2.1 = h' at *
  generalize (h.serve request s.state).2.2 = t' at *
  have locks : (s.turned name h' t').state.locks h.path.key = l' := sets.here
  obtain ⟨none, reads, same⟩ | unrecorded := turn.of_leap leap
  · have counts := readers_turned found h' t' h.path.key
    rw [← exact_.readers, ← after.readers, locks, same] at counts
    simp only [LockHolder.reads, path, none, reads, and_self, LockLevel.not_shared_le_none, and_false,
      decide_true, decide_false] at counts
    exact absurd counts (by simp)
  · have recorded := after.recorded name h' ((find?_turned found h' t' name).trans (if_pos rfl))
    rw [path, owner, locks] at recorded
    exact unrecorded recorded

/-- However levels are asked for, the one holder that has a path alone is named. -/
theorem run_alone (events : List LockEvent) :
    (start.run events).Each fun l o x => l.exclusive = some o ↔ x = .exclusive := by
  refine (run_keeps (fun _ _ => True) (P := fun s => s.Accounted ∧
    s.Each fun l o x => l.exclusive = some o ↔ x = .exclusive) ?_ (fun _ => trivial)
    (fun _ _ _ _ _ _ => trivial) (follows_true _ events)
    ⟨start_accounted, nofun⟩).2
  rintro s s' ⟨accounted, each⟩ moved
  refine ⟨accounted.moved moved, each.moved accounted moved ?_ ?_ ?_⟩
  · intro l l' me a b turn _ named alone
    exact turn.exclusive_iff named alone
  · intro l l' me o a b x turn other alone
    exact (turn.holderAt_other_iff (x := .exclusive) other).trans alone
  · intro l o unnamed
    exact iff_of_false (unnamed .exclusive) nofun

theorem step_exact_iff (accounted : s.Accounted) (exact_ : s.Exact) (e : LockEvent) :
    (s.step e).Exact ↔ ¬ s.Leaps e := by
  constructor
  · intro after leaps
    exact not_exact_of_leaps exact_ leaps after
  · intro steady
    refine (keeps_of_moved Steady (P := fun s => s.Accounted ∧ s.Exact) ?_
      (step_moved Steady steady_none ?_) ⟨accounted, exact_⟩).2
    · rintro s s' ⟨accounted, exact_⟩ moved
      exact ⟨accounted.moved moved, exact_.moved accounted moved⟩
    · intro name request h asked found leap
      exact steady ⟨name, request, h, asked, found, leap⟩

theorem exact_prefixes_iff (accounted : s.Accounted) (exact_ : s.Exact) (events : List LockEvent) :
    (∀ earlier, earlier <+: events → (s.run earlier).Exact) ↔
      s.Follows (fun s e => ¬ s.Leaps e) events := by
  induction events generalizing s with
  | nil =>
    refine iff_of_true (fun earlier start => ?_) trivial
    rw [List.prefix_nil.mp start]
    exact exact_
  | cons e rest ih =>
    have accounted' := step_accounted accounted e
    constructor
    · intro always
      have here : (s.step e).Exact := always [e] (List.prefix_append [e] rest)
      refine ⟨(step_exact_iff accounted exact_ e).mp here, (ih accounted' here).mp ?_⟩
      intro earlier start
      exact always (e :: earlier) ((List.prefix_cons_inj e).mpr start)
    · rintro ⟨steady, follows⟩ earlier start
      have here := (step_exact_iff accounted exact_ e).mpr steady
      cases earlier with
      | nil => exact exact_
      | cons e' earlier =>
        obtain ⟨rfl, tail⟩ := List.cons_prefix_cons.mp start
        exact (ih accounted' here).mpr follows earlier tail

/-- After every run the table names only holders that are there, each for a level that it has, and
exactly the one at the exclusive level for that; and no request takes from one holder what it gives to
another. It is an image of the levels throughout the run if and only if no request leaps. -/
theorem run_exact_iff (events : List LockEvent) :
    let s : LockHolders := start.run events
    s.Accounted ∧
    s.Each (fun l o x => l.exclusive = some o ↔ x = .exclusive) ∧
    (∀ name h request o key x, s.find? name = some h → o ≠ h.owner →
      (((s.step (.ask name request)).state.locks key).holderAt x = some o ↔
        (s.state.locks key).holderAt x = some o)) ∧
    ((∀ earlier, earlier <+: events → (start.run earlier).Exact) ↔
      start.Follows (fun s e => ¬ s.Leaps e) events) := by
  refine ⟨run_accounted events, run_alone events, ?_, ?_⟩
  · intro name h request o key x found other
    exact holderAt_step_ask_iff found request other key x
  · exact exact_prefixes_iff start_accounted start_exact events

/-- A holder that took the pending level without reading first takes a reader out of the count when it
lets go: the reader stays, and the path counts as one that nobody has locked. -/
theorem leap_loses_reader :
    let path : Path := ⟨[0x61]⟩
    let s : LockHolders := start.run [.make "a" path, .ask "a" (.lock .shared), .make "b" path,
      .ask "b" (.lock .pending), .ask "b" (.unlock .none)]
    (s.find? "a").map (·.level) = some .shared ∧ s.readers path.key = 1 ∧
      (s.state.locks path.key).shared = 0 ∧ s.state.isEmpty = true := by
  cbv

end LockHolders
end MappedStorage
