import MappedStorage.Proofs.Locking.Image

/-!
Exclusion by the locks of a path. Holders that ask for more than the shared level only while they
read, and that fall to the shared level or to none, never leap. So the counter counts the readers, a
holder has a path alone only when no other reads, and what keeps others out is never left behind
(`run_excludes`). That leaves at most one holder at the reserved level and one at the pending level;
one writer is certain if the pending level is asked for from the reserved one (`run_writers`).
-/

namespace MappedStorage

namespace LockRequest

/-- A holder writes only while it reads, and stops writing at once. -/
def Disciplined (held : LockLevel) : LockRequest → Prop
  | .lock level => .shared < level → .shared ≤ held
  | .unlock level => level ≤ .shared
  | _ => True

/-- A disciplined holder that reserves the file before it keeps readers out. -/
def Stepwise (held : LockLevel) : LockRequest → Prop
  | .lock level => (.shared < level → .shared ≤ held) ∧ (.reserved < level → .reserved ≤ held)
  | .unlock level => level ≤ .shared
  | _ => True

theorem Stepwise.disciplined {held : LockLevel} {request : LockRequest}
    (stepwise : request.Stepwise held) : request.Disciplined held := by
  cases request with
  | lock level => exact stepwise.1
  | unlock level => exact stepwise
  | lockSlots offset n op => trivial
  | release => trivial

end LockRequest

namespace LockHolder

variable {h : LockHolder} {t : LockTable} {request : LockRequest}

/-- What a request makes of the level of its holder. -/
theorem serve_level (h : LockHolder) (request : LockRequest) (t : LockTable) :
    (h.serve request t).2.1.level = h.level ∨
      (∃ level, request = .lock level ∧ h.level ≤ (h.serve request t).2.1.level ∧
        ((h.serve request t).2.1.level = level ∨
          level = .exclusive ∧ (h.serve request t).2.1.level = .pending)) ∨
      (∃ level, request = .unlock level ∧ level < h.level ∧
        (h.serve request t).2.1.level = level) ∨
      request = .release ∧ (h.serve request t).2.1.level = .none := by
  cases request with
  | lock level =>
    rcases locked : h.lock level t with ⟨result, h', t'⟩
    rw [serve, locked]
    cases lock_correct locked with
    | met enough => exact .inl rfl
    | refused above hindered sets => exact .inl rfl
    | granted above free few sets =>
      exact .inr (.inl ⟨level, rfl, le_of_lt above, .inl rfl⟩)
    | waiting sought above free many sets =>
      subst sought
      exact .inr (.inl ⟨_, rfl, LockLevel.le_pending_iff.mpr above, .inr ⟨rfl, rfl⟩⟩)
  | unlock level =>
    rw [serve, unlock]
    split
    · exact .inl rfl
    · rename_i above
      exact .inr (.inr (.inl ⟨level, rfl, not_le.mp above, rfl⟩))
  | lockSlots offset n op => exact .inl (lockSlots_turns rfl).2
  | release => exact .inr (.inr (.inr ⟨rfl, (h.release_turns t).2⟩))

theorem serve_steady (disciplined : request.Disciplined h.level) :
    LockHolders.Steady h.level (h.serve request t).2.1.level := by
  rintro ⟨high, leap⟩
  obtain same | ⟨level, rfl, up, reached⟩ | ⟨level, rfl, _, reached⟩ | ⟨rfl, reached⟩ :=
    h.serve_level request t
  · rw [same] at high leap
    obtain none | down := leap
    · rw [none] at high
      exact absurd high (by decide)
    · exact absurd down (lt_irrefl _)
  · have sought : LockLevel.shared < level := by
      obtain reached | ⟨rfl, _⟩ := reached
      · exact reached ▸ high
      · decide
    obtain none | down := leap
    · exact LockLevel.not_shared_le_none (none ▸ disciplined sought)
    · exact absurd down (not_lt_of_ge up)
  · rw [reached] at high
    exact absurd high (not_lt_of_ge disciplined)
  · rw [reached] at high
    exact absurd high (by decide)

/-- The levels change without a leap, and over the reserved one only from there. -/
def Orderly (a b : LockLevel) : Prop :=
  LockHolders.Steady a b ∧ (a ≤ b → .reserved < b → .reserved ≤ a)

theorem serve_orderly (stepwise : request.Stepwise h.level) :
    Orderly h.level (h.serve request t).2.1.level := by
  refine ⟨serve_steady stepwise.disciplined, fun _ high => ?_⟩
  obtain same | ⟨level, rfl, up, reached⟩ | ⟨level, rfl, _, reached⟩ | ⟨rfl, reached⟩ :=
    h.serve_level request t
  · exact le_of_lt (same ▸ high)
  · have sought : LockLevel.reserved < level := by
      obtain reached | ⟨rfl, _⟩ := reached
      · exact reached ▸ high
      · decide
    exact stepwise.2 sought
  · rw [reached] at high
    exact absurd (lt_of_lt_of_le high stepwise) (by decide)
  · rw [reached] at high
    exact absurd high (by decide)

end LockHolder

namespace FileLocks

variable {l l' : FileLocks} {me o : Owner} {a b x : LockLevel}

/-- Whoever has a path alone is named, and no two holders are counted. -/
def Alone (l : FileLocks) (o : Owner) (x : LockLevel) : Prop :=
  x = .exclusive → l.exclusive = some o ∧ l.shared ≤ 1

/-- Whoever writes has reserved the file. -/
def Writes (l : FileLocks) (o : Owner) (x : LockLevel) : Prop :=
  .reserved ≤ x → l.reserved = some o

theorem Turn.alone (turn : l.Turn me a b l') (alone : l.Alone me a) : l'.Alone me b := by
  rintro rfl
  cases turn with
  | stays same =>
    obtain ⟨named, few⟩ := alone rfl
    exact ⟨(same.holderAt .exclusive).trans named, same.shared.trans_le few⟩
  | granted reads up counted free few => exact ⟨rfl, few rfl⟩
  | lowered down readers left => exact absurd down (not_lt_of_ge (LockLevel.le_exclusive a))

theorem Turn.alone_other (turn : l.Turn me a b l') (other : o ≠ me) (alone : l.Alone o x) :
    l'.Alone o x := by
  intro exclusive
  obtain ⟨named, few⟩ := alone exclusive
  refine ⟨(turn.holderAt_other_iff (x := .exclusive) other).mpr named, ?_⟩
  cases turn with
  | stays same => exact same.shared.trans_le few
  | granted reads up counted free one =>
    cases b with
    | shared => exact absurd ⟨o, other, .inr named⟩ free
    | _ => exact few
  | lowered down readers left =>
    rw [readers]
    split
    · exact (Nat.sub_le ..).trans few
    · exact few

theorem Turn.writes (turn : l.Turn me a b l') (orderly : LockHolder.Orderly a b)
    (writes : l.Writes me a) : l'.Writes me b := by
  intro high
  cases turn with
  | stays same => exact (same.holderAt .reserved).trans (writes high)
  | granted reads up counted free few =>
    cases b with
    | none | shared => exact absurd high (by decide)
    | reserved => rfl
    | pending | exclusive => exact writes (orderly.2 up (by decide))
  | lowered down readers left =>
    have above : LockLevel.shared < b := lt_of_lt_of_le (by decide) high
    exact absurd ⟨above, .inr down⟩ orderly.1

theorem Turn.writes_other (turn : l.Turn me a b l') (other : o ≠ me) (writes : l.Writes o x) :
    l'.Writes o x :=
  fun high => (turn.holderAt_other_iff (x := .reserved) other).mpr (writes high)

end FileLocks

namespace LockHolders

/-- The requests of a run keep to a rule for the level that their holder has. -/
def Keeps (rule : LockLevel → LockRequest → Prop) (s : LockHolders) : LockEvent → Prop
  | .ask name request => ∀ h, s.find? name = some h → rule h.level request
  | .make .. | .drop _ => True

/-- Holders that exclude each other, by the locks of each path. -/
structure Excludes (s : LockHolders) : Prop where
  /-- Where one has a path alone, all others have no lock on it. -/
  alone : ∀ name name' h h', name' ≠ name → s.find? name = some h → s.find? name' = some h' →
    h'.path.key = h.path.key → h.level = .exclusive → h'.level = .none
  one_pending : ∀ name name' h h', s.find? name = some h → s.find? name' = some h' →
    h'.path.key = h.path.key → .pending ≤ h.level → .pending ≤ h'.level → name = name'
  one_reserved : ∀ name name' h h', s.find? name = some h → s.find? name' = some h' →
    h'.path.key = h.path.key → h.level = .reserved → h'.level = .reserved → name = name'
  /-- Nobody begins to read where another waits or writes. -/
  no_reader : ∀ name name' h h' request, name' ≠ name → s.find? name = some h →
    s.find? name' = some h' → h'.path.key = h.path.key → .pending ≤ h.level → h'.level = .none →
    (h'.serve request s.state).2.1.level ≠ .shared
  /-- The last one with a lock, or the first, gets every level that it asks for. -/
  last_served : ∀ name h level, s.find? name = some h →
    (∀ name' h', name' ≠ name → s.find? name' = some h' → h'.path.key = h.path.key →
      h'.level = .none) →
    (h.serve (.lock level) s.state).1 = .ok () ∧
      level ≤ (h.serve (.lock level) s.state).2.1.level

/-- The table is exact, and whoever has a path alone reads it alone. -/
structure Guarded (s : LockHolders) : Prop where
  accounted : s.Accounted
  exact : s.Exact
  alone : s.Each FileLocks.Alone

variable {s s' : LockHolders} {name name' : String} {h h' : LockHolder} {events : List LockEvent}

theorem Guarded.moved (guarded : s.Guarded) (moved : Moved Steady s s') : s'.Guarded := by
  refine ⟨guarded.accounted.moved moved, guarded.exact.moved guarded.accounted moved, ?_⟩
  refine guarded.alone.moved guarded.accounted moved ?_ ?_ ?_
  · intro l l' me a b turn _ _ alone
    exact turn.alone alone
  · intro l l' me o a b x turn other alone
    exact turn.alone_other other alone
  · intro l o _ exclusive
    cases exclusive

theorem run_guarded (follows : start.Follows (Keeps LockRequest.Disciplined) events) :
    (start.run events).Guarded := by
  refine run_keeps Steady Guarded.moved steady_none ?_ follows ⟨start_accounted, start_exact, nofun⟩
  intro s name request h keeps found
  exact LockHolder.serve_steady (keeps h found)

namespace Guarded

theorem alone_of_exclusive (guarded : s.Guarded) (different : name' ≠ name)
    (found : s.find? name = some h) (found' : s.find? name' = some h')
    (same : h'.path.key = h.path.key) (exclusive : h.level = .exclusive) : h'.level = .none := by
  have few := (guarded.alone name h found exclusive).2
  rw [guarded.exact.readers] at few
  have reads : h.reads h.path.key = true :=
    decide_eq_true ⟨rfl, exclusive ▸ LockLevel.le_exclusive _⟩
  by_contra held
  have reads' : h'.reads h.path.key = true :=
    decide_eq_true ⟨same, LockLevel.none_lt_iff.mp (lt_of_le_of_ne (LockLevel.none_le _)
      (Ne.symm held))⟩
  exact absurd few (Nat.not_le.mpr (Keyed.one_lt_count different found found' reads reads'))

theorem eq_of_pending (guarded : s.Guarded) (found : s.find? name = some h)
    (found' : s.find? name' = some h') (same : h'.path.key = h.path.key)
    (pending : .pending ≤ h.level) (pending' : .pending ≤ h'.level) : name = name' := by
  have named := (guarded.exact.recorded name h found).pending.mpr pending
  have named' := (guarded.exact.recorded name' h' found').pending.mpr pending'
  rw [same, named] at named'
  exact guarded.accounted.distinct name name' h h' found found' (Option.some.inj named')

theorem eq_of_reserved (guarded : s.Guarded) (found : s.find? name = some h)
    (found' : s.find? name' = some h') (same : h'.path.key = h.path.key)
    (reserved : h.level = .reserved) (reserved' : h'.level = .reserved) : name = name' := by
  have named := (guarded.exact.recorded name h found).reserved reserved
  have named' := (guarded.exact.recorded name' h' found').reserved reserved'
  rw [same, named] at named'
  exact guarded.accounted.distinct name name' h h' found found' (Option.some.inj named')

theorem no_reader (guarded : s.Guarded) (request : LockRequest) (different : name' ≠ name)
    (found : s.find? name = some h) (found' : s.find? name' = some h')
    (same : h'.path.key = h.path.key) (pending : .pending ≤ h.level) (idle : h'.level = .none) :
    (h'.serve request s.state).2.1.level ≠ .shared := by
  intro reads
  obtain stays | ⟨level, rfl, -, -⟩ | ⟨_, -, below, -⟩ | ⟨-, gone⟩ := h'.serve_level request s.state
  · rw [stays, idle] at reads
    cases reads
  · rcases locked : h'.lock level s.state with ⟨result, g, t'⟩
    rw [LockHolder.serve, locked] at reads
    cases LockHolder.lock_correct locked with
    | met enough =>
      rw [idle] at reads
      cases reads
    | refused above hindered sets =>
      rw [idle] at reads
      cases reads
    | granted above free few sets =>
      obtain rfl : level = .shared := reads
      have named := (guarded.exact.recorded name h found).pending.mpr pending
      have other : h.owner ≠ h'.owner := fun owner =>
        different (guarded.accounted.distinct name name' h h' found found' owner).symm
      exact free ⟨h.owner, other, .inl (same ▸ named)⟩
    | waiting sought above free many sets => cases reads
  · rw [idle] at below
    exact absurd below (not_lt_of_ge (LockLevel.none_le _))
  · rw [gone] at reads
    cases reads

/-- A request is refused, or must wait, only because of another holder with a lock on the path. -/
theorem last_served (guarded : s.Guarded) (found : s.find? name = some h) (level : LockLevel)
    (idle : ∀ name' h', name' ≠ name → s.find? name' = some h' → h'.path.key = h.path.key →
      h'.level = .none) :
    (h.serve (.lock level) s.state).1 = .ok () ∧
      level ≤ (h.serve (.lock level) s.state).2.1.level := by
  rcases locked : h.lock level s.state with ⟨result, g, t'⟩
  rw [LockHolder.serve, locked]
  cases LockHolder.lock_correct locked with
  | met enough => exact ⟨rfl, enough⟩
  | refused above hindered sets =>
    obtain ⟨o, x, other, named⟩ := hindered.holderAt
    obtain ⟨name', h', found', same, rfl, enough⟩ := guarded.accounted.there _ x o named
    have different : name' ≠ name := by
      rintro rfl
      rw [found] at found'
      cases found'
      exact other rfl
    rw [idle name' h' different found' same] at enough
    have high := FileLocks.shared_lt_of_holderAt named
    exact absurd (lt_of_lt_of_le high enough) (by decide)
  | granted above free few sets => exact ⟨rfl, le_refl level⟩
  | waiting sought above free many sets =>
    have only : s.readers h.path.key ≤ 1 := by
      refine Keyed.count_le_one name fun name' h' found' reads => ?_
      by_contra different
      obtain ⟨same, reads⟩ := of_decide_eq_true reads
      rw [idle name' h' different found' same] at reads
      exact LockLevel.not_shared_le_none reads
    rw [guarded.exact.readers] at many
    exact absurd many (Nat.not_lt.mpr only)

theorem excludes (guarded : s.Guarded) : s.Excludes where
  alone _ _ _ _ different found found' same exclusive :=
    guarded.alone_of_exclusive different found found' same exclusive
  one_pending _ _ _ _ found found' same pending pending' :=
    guarded.eq_of_pending found found' same pending pending'
  one_reserved _ _ _ _ found found' same reserved reserved' :=
    guarded.eq_of_reserved found found' same reserved reserved'
  no_reader _ _ _ _ request different found found' same pending idle :=
    guarded.no_reader request different found found' same pending idle
  last_served _ _ level found idle := guarded.last_served found level idle

end Guarded

/-- Holders that keep to the discipline exclude each other, whatever else they do in whichever order. -/
theorem run_excludes (events : List LockEvent)
    (follows : start.Follows (Keeps LockRequest.Disciplined) events) :
    (start.run events).Excludes :=
  (run_guarded follows).excludes

theorem keeps_disciplined {e : LockEvent} (keeps : s.Keeps LockRequest.Stepwise e) :
    s.Keeps LockRequest.Disciplined e := by
  cases e with
  | make name path => trivial
  | ask name request => exact fun h found => (keeps h found).disciplined
  | drop name => trivial

theorem keeps_of_level {rule : LockLevel → LockRequest → Prop} {request : LockRequest}
    (level : LockLevel) (held : (s.find? name).map (·.level) = some level)
    (kept : rule level request) : s.Keeps rule (.ask name request) := by
  intro h found
  rw [found] at held
  cases held
  exact kept

/-- A reader and a writer that waits for it. -/
theorem waiting_writer_excludes :
    let path : Path := ⟨[0x61]⟩
    let events : List LockEvent := [.make "a" path, .ask "a" (.lock .shared), .make "b" path,
      .ask "b" (.lock .shared), .ask "b" (.lock .reserved), .ask "b" (.lock .exclusive)]
    ((start.run events).find? "b").map (·.level) = some .pending ∧ (start.run events).Excludes := by
  refine ⟨by cbv, run_excludes _ ⟨trivial, ?_, trivial, ?_, ?_, ?_, trivial⟩⟩
  · exact keeps_of_level .none (by cbv) fun above => absurd above (by decide)
  · exact keeps_of_level .none (by cbv) fun above => absurd above (by decide)
  · exact keeps_of_level .shared (by cbv) fun _ => by decide
  · exact keeps_of_level .reserved (by cbv) fun _ => by decide

/-! ## Writers -/

/-- One holder waits while another has reserved the path, and no third one is past the shared
level. -/
theorem Guarded.two_writers (guarded : s.Guarded) (different : name' ≠ name)
    (found : s.find? name = some h) (found' : s.find? name' = some h')
    (same : h'.path.key = h.path.key) (writes : .reserved ≤ h.level)
    (writes' : .reserved ≤ h'.level) :
    h.level = .reserved ∧ h'.level = .pending ∨ h.level = .pending ∧ h'.level = .reserved := by
  have high (level : LockLevel) (writes : .reserved ≤ level) :
      level = .reserved ∨ level = .pending ∨ level = .exclusive := by
    cases level
    case none | shared => exact absurd writes (by decide)
    all_goals simp
  obtain reserved | pending | exclusive := high _ writes <;>
    obtain reserved' | pending' | exclusive' := high _ writes'
  · exact absurd (guarded.eq_of_reserved found found' same reserved reserved').symm different
  · exact .inl ⟨reserved, pending'⟩
  · have idle := guarded.alone_of_exclusive different.symm found' found same.symm exclusive'
    rw [idle] at reserved
    cases reserved
  · exact .inr ⟨pending, reserved'⟩
  · exact absurd (guarded.eq_of_pending found found' same pending.ge pending'.ge).symm different
  · have idle := guarded.alone_of_exclusive different.symm found' found same.symm exclusive'
    rw [idle] at pending
    cases pending
  · have idle := guarded.alone_of_exclusive different found found' same exclusive
    rw [idle] at reserved'
    cases reserved'
  · have idle := guarded.alone_of_exclusive different found found' same exclusive
    rw [idle] at pending'
    cases pending'
  · have idle := guarded.alone_of_exclusive different found found' same exclusive
    rw [idle] at exclusive'
    cases exclusive'

theorem Guarded.isReserved_iff (guarded : s.Guarded) (found : s.find? name = some h)
    (low : h.level ≤ .shared) :
    h.isReserved s.state = true ↔ ∃ name' h', name' ≠ name ∧ s.find? name' = some h' ∧
      h'.path.key = h.path.key ∧ .reserved ≤ h'.level := by
  rw [LockHolder.isReserved_iff]
  constructor
  · rintro ⟨x, o, named⟩
    obtain ⟨name', h', found', same, rfl, enough⟩ := guarded.accounted.there _ x o named
    have above := FileLocks.shared_lt_of_holderAt named
    refine ⟨name', h', ?_, found', same, LockLevel.shared_lt_iff.mp (lt_of_lt_of_le above enough)⟩
    rintro rfl
    rw [found] at found'
    cases found'
    exact absurd (lt_of_lt_of_le above (le_trans enough low)) (lt_irrefl _)
  · rintro ⟨name', h', _, found', same, writes⟩
    have recorded := guarded.exact.recorded name' h' found'
    rw [same] at recorded
    obtain reserved | more := eq_or_lt_of_le writes
    · exact ⟨.reserved, h'.owner, recorded.reserved reserved.symm⟩
    · exact ⟨.pending, h'.owner, recorded.pending.mpr (LockLevel.reserved_lt_iff.mp more)⟩

theorem run_writes {events : List LockEvent}
    (follows : start.Follows (Keeps LockRequest.Stepwise) events) :
    (start.run events).Each FileLocks.Writes := by
  refine (run_keeps LockHolder.Orderly
    (P := fun s => s.Accounted ∧ s.Each FileLocks.Writes) ?_ ?_ ?_ follows
    ⟨start_accounted, nofun⟩).2
  · rintro s s' ⟨accounted, each⟩ moved
    refine ⟨accounted.moved moved, each.moved accounted moved ?_ ?_ ?_⟩
    · intro l l' me a b turn orderly _ writes
      exact turn.writes orderly writes
    · intro l l' me o a b x turn other writes
      exact turn.writes_other other writes
    · intro l o _ high
      exact absurd high (by decide)
  · intro a
    exact ⟨steady_none a, fun _ high => absurd high (by decide)⟩
  · intro s name request h keeps found
    exact LockHolder.serve_orderly (keeps h found)

/-- Of holders that keep to the discipline two are past the shared level at most, and if there are two
then one has reserved the path and the other waits or keeps readers out. A holder that is not past it
learns whether another one is. There is one writer at most if the pending and the exclusive level are
asked for from the reserved level on. -/
theorem run_writers (events : List LockEvent)
    (follows : start.Follows (Keeps LockRequest.Disciplined) events) :
    let s : LockHolders := start.run events
    (∀ name name' h h', name' ≠ name → s.find? name = some h → s.find? name' = some h' →
      h'.path.key = h.path.key → .reserved ≤ h.level → .reserved ≤ h'.level →
      h.level = .reserved ∧ h'.level = .pending ∨ h.level = .pending ∧ h'.level = .reserved) ∧
    (∀ name h, s.find? name = some h → h.level ≤ .shared →
      (h.isReserved s.state = true ↔ ∃ name' h', name' ≠ name ∧ s.find? name' = some h' ∧
        h'.path.key = h.path.key ∧ .reserved ≤ h'.level)) ∧
    (start.Follows (Keeps LockRequest.Stepwise) events →
      (∀ name name' h h', s.find? name = some h → s.find? name' = some h' →
        h'.path.key = h.path.key → .reserved ≤ h.level → .reserved ≤ h'.level → name' = name) ∧
      ∀ name h, s.find? name = some h → h.level ≤ .shared → h.isReserved s.state = true →
        ∃! name', ∃ h', s.find? name' = some h' ∧ h'.path.key = h.path.key ∧
          .reserved ≤ h'.level) := by
  intro s
  have guarded : s.Guarded := run_guarded follows
  refine ⟨?_, ?_, fun stepwise => ?_⟩
  · intro name name' h h' different found found' same writes writes'
    exact guarded.two_writers different found found' same writes writes'
  · intro name h found low
    exact guarded.isReserved_iff found low
  · have each : s.Each FileLocks.Writes := run_writes stepwise
    have one (name name' h h') (found : s.find? name = some h) (found' : s.find? name' = some h')
        (same : h'.path.key = h.path.key) (writes : .reserved ≤ h.level)
        (writes' : .reserved ≤ h'.level) : name' = name := by
      have named := each name h found writes
      have named' := each name' h' found' writes'
      rw [same, named] at named'
      exact (guarded.accounted.distinct name name' h h' found found' (Option.some.inj named')).symm
    refine ⟨one, ?_⟩
    intro name h found low reserved
    obtain ⟨name', h', _, found', same, writes⟩ := (guarded.isReserved_iff found low).mp reserved
    refine ⟨name', ⟨h', found', same, writes⟩, ?_⟩
    rintro other ⟨g, there, alike, high⟩
    exact one name' other h' g found' there (alike.trans same.symm) writes high

/-- A reader that sees one writer. -/
theorem reader_sees_writer :
    let path : Path := ⟨[0x61]⟩
    let s : LockHolders := start.run [.make "a" path, .ask "a" (.lock .shared), .make "b" path,
      .ask "b" (.lock .shared), .ask "b" (.lock .reserved)]
    ∃! name, ∃ h, s.find? name = some h ∧ h.path.key = path.key ∧ .reserved ≤ h.level := by
  intro path s
  have stepwise : start.Follows (Keeps LockRequest.Stepwise) [.make "a" path,
      .ask "a" (.lock .shared), .make "b" path, .ask "b" (.lock .shared),
      .ask "b" (.lock .reserved)] := by
    refine ⟨trivial, ?_, trivial, ?_, ?_, trivial⟩
    · exact keeps_of_level .none (by cbv) (by constructor <;> decide)
    · exact keeps_of_level .none (by cbv) (by constructor <;> decide)
    · exact keeps_of_level .shared (by cbv) (by constructor <;> decide)
  have found : s.find? "a" = some { path, owner := 0, level := .shared } := by cbv
  have reserved : ({ path, owner := 0, level := .shared } : LockHolder).isReserved s.state = true := by
    cbv
  have writers := run_writers _ (stepwise.mono fun _ _ => keeps_disciplined)
  exact (writers.2.2 stepwise).2 "a" _ found (le_refl LockLevel.shared) reserved

/-- Both have asked for a writer's level while they read, and both have it. -/
theorem two_writers_at_once :
    let path : Path := ⟨[0x61]⟩
    let events : List LockEvent := [.make "a" path, .make "b" path, .ask "a" (.lock .shared),
      .ask "b" (.lock .shared), .ask "a" (.lock .exclusive), .ask "b" (.lock .reserved)]
    start.Follows (Keeps LockRequest.Disciplined) events ∧
      ((start.run events).find? "a").map (·.level) = some .pending ∧
      ((start.run events).find? "b").map (·.level) = some .reserved := by
  refine ⟨⟨trivial, trivial, ?_, ?_, ?_, ?_, trivial⟩, by cbv, by cbv⟩
  · exact keeps_of_level .none (by cbv) fun above => absurd above (by decide)
  · exact keeps_of_level .none (by cbv) fun above => absurd above (by decide)
  · exact keeps_of_level .shared (by cbv) fun _ => by decide
  · exact keeps_of_level .shared (by cbv) fun _ => by decide

end LockHolders
end MappedStorage
