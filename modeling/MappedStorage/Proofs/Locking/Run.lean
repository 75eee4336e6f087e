import Mathlib.Logic.Relation
import MappedStorage.Proofs.Locking.Holder
import MappedStorage.Proofs.Session

/-!
Runs of holders that share one table of locks. An event makes a holder, drops one, or serves a
request of one. It moves the holders in steps of three kinds (`Moved`), of which only the requests
change levels (`step_moved`). However the requests come, the table names nobody who is not there and
nobody for a level above the one held, and the one that is alone is always named (`Accounted`). Holders have
the numbers below the count of those that were made (`owner_lt_of_run`).
-/

namespace MappedStorage

/-- What a holder is asked to do. -/
inductive LockRequest where
  | lock (level : LockLevel)
  | unlock (level : LockLevel)
  | lockSlots (offset n : Nat) (op : SlotLockOp)
  | release

/-- Serves a request. -/
def LockHolder.serve (h : LockHolder) (request : LockRequest) (t : LockTable) :
    Except ProviderError Unit × LockHolder × LockTable :=
  match request with
  | .lock level => h.lock level t
  | .unlock level => (.ok (), h.unlock level t)
  | .lockSlots offset n op => h.lockSlots offset n op t
  | .release => (.ok (), h.release t)

/-- Holders of locks by name, with the table that they share. -/
abbrev LockHolders := Session LockHolder LockTable

/-- What happens to holders of locks. One that is made takes the place of the one that had the name,
which is dropped. -/
inductive LockEvent where
  | make (name : String) (path : Path)
  | ask (name : String) (request : LockRequest)
  | drop (name : String)

/-- The event makes a holder. -/
def LockEvent.makes : LockEvent → Bool
  | .make .. => true
  | .ask .. | .drop _ => false

namespace LockHolders

/-- No holder is there yet. -/
def start : LockHolders := { state := {} }

/-- The holders after one is dropped, which lets go of everything. -/
def give (s : LockHolders) (name : String) : LockHolders := s.drop name fun h t => (h.release t).2

/-- The holders with a new one on a path. -/
def join (s : LockHolders) (name : String) (path : Path) : LockHolders :=
  let (h, t) := s.state.addHolder path
  { s.put name h with state := t }

/-- The holders after one event. -/
def step (s : LockHolders) : LockEvent → LockHolders
  | .make name path => (s.give name).join name path
  | .ask name request => ((s.act name fun h t => h.serve request t).map (·.2)).getD s
  | .drop name => s.give name

/-- The holders after some events. -/
def run (s : LockHolders) (events : List LockEvent) : LockHolders := events.foldl step s

/-- Every event of a run keeps to a rule. -/
def Follows (rule : LockHolders → LockEvent → Prop) (s : LockHolders) : List LockEvent → Prop
  | [] => True
  | e :: rest => rule s e ∧ Follows rule (s.step e) rest

/-- The holders with one that has turned. -/
def turned (s : LockHolders) (name : String) (h : LockHolder) (t : LockTable) : LockHolders :=
  { s.update name h with state := t }

/-- One step of holders, where a level changes only as it may. -/
inductive Moved (may : LockLevel → LockLevel → Prop) (s : LockHolders) : LockHolders → Prop
  | turns {name : String} {h h' : LockHolder} {t' : LockTable} (found : s.find? name = some h)
      (turns : h.Turns s.state h' t') (allowed : may h.level h'.level) :
      Moved may s (s.turned name h' t')
  | leaves {name : String} {h : LockHolder} (found : s.find? name = some h)
      (free : h.level = .none) : Moved may s (s.forget name)
  | joins {name : String} {path : Path} (absent : s.find? name = none) :
      Moved may s (s.join name path)

/-- Who the table names. -/
structure Accounted (s : LockHolders) : Prop where
  distinct : ∀ name name' h h', s.find? name = some h → s.find? name' = some h' →
    h.owner = h'.owner → name = name'
  numbered : ∀ name h, s.find? name = some h → h.owner < s.state.nextOwner
  /-- Whoever is named is there and has at least the level. -/
  there : ∀ key x o, (s.state.locks key).holderAt x = some o →
    ∃ name h, s.find? name = some h ∧ h.path.key = key ∧ h.owner = o ∧ x ≤ h.level

/-- What the table tells of the level of each holder. -/
def Each (Φ : FileLocks → Owner → LockLevel → Prop) (s : LockHolders) : Prop :=
  ∀ name h, s.find? name = some h → Φ (s.state.locks h.path.key) h.owner h.level

end LockHolders

theorem LockHolder.serve_turns (h : LockHolder) (request : LockRequest) (t : LockTable) :
    h.Turns t (h.serve request t).2.1 (h.serve request t).2.2 := by
  cases request with
  | lock level => exact lock_turns rfl
  | unlock level => exact unlock_turns rfl
  | lockSlots offset n op => exact (lockSlots_turns rfl).1
  | release => exact (h.release_turns t).1

namespace LockHolders

variable {s s' : LockHolders} {name other : String} {h h' g : LockHolder} {e : LockEvent}
  {t' : LockTable} {may : LockLevel → LockLevel → Prop} {path : Path}

/-! ## Steps -/

theorem find?_turned (found : s.find? name = some h) (h' : LockHolder) (t' : LockTable)
    (other : String) :
    (s.turned name h' t').find? other = if other = name then some h' else s.find? other :=
  Session.find?_update found h'

theorem turned_cases (found : s.find? name = some h)
    (there : (s.turned name h' t').find? other = some g) :
    other = name ∧ g = h' ∨ other ≠ name ∧ s.find? other = some g := by
  rw [find?_turned found] at there
  split at there
  · rename_i here
    exact .inl ⟨here, (Option.some.inj there).symm⟩
  · rename_i different
    exact .inr ⟨different, there⟩

theorem find?_join (s : LockHolders) (name : String) (path : Path) (other : String) :
    (s.join name path).find? other =
      if other = name then some { path, owner := s.state.nextOwner } else s.find? other :=
  Session.find?_put ..

theorem join_cases (there : (s.join name path).find? other = some g) :
    other = name ∧ g = { path, owner := s.state.nextOwner } ∨ s.find? other = some g := by
  rw [find?_join] at there
  split at there
  · rename_i here
    exact .inl ⟨here, (Option.some.inj there).symm⟩
  · exact .inr there

theorem step_ask (found : s.find? name = some h) (request : LockRequest) :
    s.step (.ask name request) =
      s.turned name (h.serve request s.state).2.1 (h.serve request s.state).2.2 := by
  simp only [step, Session.act, found, Option.map_some, Option.getD_some]
  rfl

theorem step_ask_of_none (absent : s.find? name = none) (request : LockRequest) :
    s.step (.ask name request) = s := by
  simp only [step, Session.act, absent, Option.map_none, Option.getD_none]

theorem give_of_none (absent : s.find? name = none) : s.give name = s := by
  rw [give, Session.drop, absent]

/-- A holder that is dropped lets go of everything and is gone. -/
theorem give_of_find? (found : s.find? name = some h) : s.give name =
    Session.forget (s.turned name (h.release s.state).1 (h.release s.state).2) name := by
  rw [give, Session.drop, found]
  simp only [turned, Session.forget, Session.update, Keyed.erase_modify_eq]

theorem give_moved (down : ∀ a, may a .none) (name : String) :
    Relation.ReflTransGen (Moved may) s (s.give name) ∧ (s.give name).find? name = none := by
  cases found : s.find? name with
  | none =>
    rw [give_of_none found]
    exact ⟨.refl, found⟩
  | some h =>
    obtain ⟨turns, free⟩ := h.release_turns s.state
    rw [give_of_find? found]
    refine ⟨?_, (Session.find?_forget ..).trans (if_pos rfl)⟩
    have turns : Moved may s _ := .turns found turns (free ▸ down h.level)
    have here := (find?_turned found (h.release s.state).1 (h.release s.state).2 name).trans
      (if_pos rfl)
    exact .tail (.single turns) (.leaves here free)

/-- An event is a few steps, in which levels change as the requests do. -/
theorem step_moved (may : LockLevel → LockLevel → Prop) (down : ∀ a, may a .none)
    (asked : ∀ name request h, e = .ask name request → s.find? name = some h →
      may h.level (h.serve request s.state).2.1.level) :
    Relation.ReflTransGen (Moved may) s (s.step e) := by
  cases e with
  | make name path =>
    obtain ⟨given, absent⟩ := give_moved (s := s) down name
    exact given.tail (.joins absent)
  | ask name request =>
    cases found : s.find? name with
    | none => rw [step_ask_of_none found]
    | some h =>
      rw [step_ask found]
      exact .single (.turns found (h.serve_turns request s.state) (asked name request h rfl found))
  | drop name => exact (give_moved down name).1

/-! ## What always holds -/

theorem start_accounted : start.Accounted := by
  refine ⟨nofun, nofun, ?_⟩
  intro key x o named
  cases x <;> cases named

theorem Accounted.le_of_holderAt (accounted : s.Accounted) (found : s.find? name = some h)
    {x : LockLevel} (named : (s.state.locks h.path.key).holderAt x = some h.owner) :
    x ≤ h.level := by
  obtain ⟨other, g, there, -, same, enough⟩ := accounted.there _ x _ named
  obtain rfl := accounted.distinct other name g h there found same
  rw [found] at there
  cases there
  exact enough

theorem Accounted.turned (accounted : s.Accounted) (found : s.find? name = some h)
    (turns : h.Turns s.state h' t') : (s.turned name h' t').Accounted := by
  obtain ⟨path, owner, l', turn, sets⟩ := turns
  have earlier {other : String} {g : LockHolder}
      (there : (s.turned name h' t').find? other = some g) :
      ∃ g₀, s.find? other = some g₀ ∧ g.owner = g₀.owner := by
    obtain ⟨rfl, rfl⟩ | ⟨_, before⟩ := turned_cases found there
    · exact ⟨h, found, owner⟩
    · exact ⟨g, before, rfl⟩
  refine ⟨?_, ?_, ?_⟩
  · intro n n' g g' there there' same
    obtain ⟨g₀, before, owner₀⟩ := earlier there
    obtain ⟨g₀', before', owner₀'⟩ := earlier there'
    exact accounted.distinct n n' g₀ g₀' before before' (owner₀ ▸ owner₀' ▸ same)
  · intro n g there
    obtain ⟨g₀, before, owner₀⟩ := earlier there
    rw [owner₀]
    exact sets.nextOwner ▸ accounted.numbered n g₀ before
  · intro key x o named
    by_cases mine : key = h.path.key ∧ o = h.owner
    · obtain ⟨rfl, rfl⟩ := mine
      rw [show (s.turned name h' t').state.locks _ = l' from sets.here] at named
      refine ⟨name, h', (find?_turned found h' t' name).trans (if_pos rfl), by rw [path], owner, ?_⟩
      exact turn.le_of_holderAt (fun x => accounted.le_of_holderAt found) named
    · -- Another holder, or one of another path, stands as it did.
      have before : (s.state.locks key).holderAt x = some o := by
        by_cases here : key = h.path.key
        · subst here
          rw [show (s.turned name h' t').state.locks _ = l' from sets.here] at named
          exact (turn.holderAt_other_iff fun same => mine ⟨rfl, same⟩).mp named
        · rw [show (s.turned name h' t').state.locks key = _ from sets.elsewhere here] at named
          exact named
      obtain ⟨other, g, there, same, rfl, enough⟩ := accounted.there key x o before
      have different : other ≠ name := by
        rintro rfl
        rw [found] at there
        cases there
        exact mine ⟨same.symm, rfl⟩
      exact ⟨other, g, (find?_turned found h' t' other).trans ((if_neg different).trans there), same,
        rfl, enough⟩

theorem Accounted.forget (accounted : s.Accounted) (found : s.find? name = some h)
    (free : h.level = .none) : Accounted (s.forget name) := by
  have earlier {other : String} {g : LockHolder} (there : (s.forget name).find? other = some g) :
      s.find? other = some g := by
    rw [Session.find?_forget] at there
    split at there
    · cases there
    · exact there
  refine ⟨?_, ?_, ?_⟩
  · intro n n' g g' there there'
    exact accounted.distinct n n' g g' (earlier there) (earlier there')
  · intro n g there
    exact accounted.numbered n g (earlier there)
  · intro key x o named
    obtain ⟨other, g, there, same, rfl, enough⟩ := accounted.there key x o named
    have different : other ≠ name := by
      rintro rfl
      rw [found] at there
      cases there
      have above := FileLocks.shared_lt_of_holderAt named
      rw [free] at enough
      exact absurd (lt_of_lt_of_le above enough) (by decide)
    exact ⟨other, g, (Session.find?_forget ..).trans ((if_neg different).trans there), same, rfl,
      enough⟩

theorem Accounted.join (accounted : s.Accounted) (absent : s.find? name = none) (path : Path) :
    (s.join name path).Accounted := by
  have fresh {other : String} {g : LockHolder} (there : s.find? other = some g) :
      g.owner ≠ s.state.nextOwner := Nat.ne_of_lt (accounted.numbered other g there)
  refine ⟨?_, ?_, ?_⟩
  · intro n n' g g' there there' same
    obtain ⟨rfl, rfl⟩ | before := join_cases there <;>
      obtain ⟨rfl, rfl⟩ | before' := join_cases there'
    · rfl
    · exact absurd same.symm (fresh before')
    · exact absurd same (fresh before)
    · exact accounted.distinct n n' g g' before before' same
  · intro n g there
    obtain ⟨rfl, rfl⟩ | before := join_cases there
    · exact Nat.lt_succ_self _
    · exact Nat.lt_succ_of_lt (accounted.numbered n g before)
  · intro key x o named
    obtain ⟨other, g, there, same, owner, enough⟩ := accounted.there key x o named
    have different : other ≠ name := by
      rintro rfl
      rw [absent] at there
      cases there
    exact ⟨other, g, (find?_join ..).trans ((if_neg different).trans there), same, owner, enough⟩

theorem Accounted.moved (accounted : s.Accounted) (moved : Moved may s s') : s'.Accounted := by
  cases moved with
  | turns found turns allowed => exact accounted.turned found turns
  | leaves found free => exact accounted.forget found free
  | joins absent => exact accounted.join absent _

/-- What the table tells of each holder stays true if it does so for the holder that turns and for
those that do not. -/
theorem Each.moved {Φ : FileLocks → Owner → LockLevel → Prop} (each : s.Each Φ)
    (accounted : s.Accounted) (moved : Moved may s s')
    (own : ∀ {l l' : FileLocks} {me : Owner} {a b : LockLevel}, l.Turn me a b l' → may a b →
      (∀ x, l.holderAt x = some me → x ≤ a) → Φ l me a → Φ l' me b)
    (others : ∀ {l l' : FileLocks} {me o : Owner} {a b x : LockLevel}, l.Turn me a b l' → o ≠ me →
      Φ l o x → Φ l' o x)
    (fresh : ∀ {l : FileLocks} {o : Owner}, (∀ x, l.holderAt x ≠ some o) → Φ l o .none) :
    s'.Each Φ := by
  cases moved with
  | @turns name h h' t' found turns allowed =>
    obtain ⟨path, owner, l', turn, sets⟩ := turns
    intro other g there
    obtain ⟨rfl, rfl⟩ | ⟨different, before⟩ := turned_cases found there
    · rw [path, owner, show (s.turned other g t').state.locks _ = l' from sets.here]
      exact own turn allowed (fun x => accounted.le_of_holderAt found) (each other h found)
    · by_cases here : g.path.key = h.path.key
      · rw [here, show (s.turned name h' t').state.locks _ = l' from sets.here]
        have distinct : g.owner ≠ h.owner := fun same =>
          different (accounted.distinct other name g h before found same)
        exact others turn distinct (here ▸ each other g before)
      · rw [show (s.turned name h' t').state.locks _ = _ from sets.elsewhere here]
        exact each other g before
  | @leaves name h found free =>
    intro other g there
    rw [Session.find?_forget] at there
    split at there
    · cases there
    · exact each other g there
  | @joins name path absent =>
    intro other g there
    obtain ⟨rfl, rfl⟩ | before := join_cases there
    · refine fresh fun x named => ?_
      obtain ⟨other, g, there, -, same, -⟩ := accounted.there _ x _ named
      exact absurd same (Nat.ne_of_lt (accounted.numbered other g there))
    · exact each other g before

theorem keeps_of_moved (may : LockLevel → LockLevel → Prop) {P : LockHolders → Prop}
    (kept : ∀ {s s' : LockHolders}, P s → Moved may s s' → P s')
    (moved : Relation.ReflTransGen (Moved may) s s') (holds : P s) : P s' := by
  induction moved with
  | refl => exact holds
  | tail _ last before => exact kept before last

/-- What every step keeps holds after a run in which no level changes but as it may. -/
theorem run_keeps (may : LockLevel → LockLevel → Prop) {P : LockHolders → Prop}
    {rule : LockHolders → LockEvent → Prop}
    (kept : ∀ {s s' : LockHolders}, P s → Moved may s s' → P s') (down : ∀ a, may a .none)
    (allowed : ∀ s name request h, rule s (.ask name request) → s.find? name = some h →
      may h.level (h.serve request s.state).2.1.level)
    {events : List LockEvent} (follows : s.Follows rule events) (holds : P s) :
    P (s.run events) := by
  induction events generalizing s with
  | nil => exact holds
  | cons e rest ih =>
    refine ih follows.2 (keeps_of_moved may kept (step_moved may down ?_) holds)
    rintro name request h rfl found
    exact allowed s name request h follows.1 found

theorem follows_true (s : LockHolders) (events : List LockEvent) :
    s.Follows (fun _ _ => True) events := by
  induction events generalizing s with
  | nil => trivial
  | cons e rest ih => exact ⟨trivial, ih (s.step e)⟩

theorem Follows.mono {rule rule' : LockHolders → LockEvent → Prop} {events : List LockEvent}
    (implies : ∀ s e, rule s e → rule' s e) (follows : s.Follows rule events) :
    s.Follows rule' events := by
  induction events generalizing s with
  | nil => trivial
  | cons e rest ih => exact ⟨implies s e follows.1, ih follows.2⟩

theorem step_accounted (accounted : s.Accounted) (e : LockEvent) : (s.step e).Accounted :=
  keeps_of_moved (fun _ _ => True) Accounted.moved
    (step_moved _ (fun _ => trivial) fun _ _ _ _ _ => trivial) accounted

theorem run_accounted (events : List LockEvent) : (start.run events).Accounted :=
  run_keeps (fun _ _ => True) Accounted.moved (fun _ => trivial)
    (fun _ _ _ _ _ _ => trivial) (follows_true _ events) start_accounted

/-! ## Numbers of holders -/

theorem nextOwner_give (s : LockHolders) (name : String) :
    (s.give name).state.nextOwner = s.state.nextOwner := by
  cases found : s.find? name with
  | none => rw [give_of_none found]
  | some h =>
    obtain ⟨-, -, l', -, sets⟩ := (h.release_turns s.state).1
    rw [give_of_find? found]
    exact sets.nextOwner

/-- A number is used up only when a holder is made. -/
theorem nextOwner_step (s : LockHolders) (e : LockEvent) :
    (s.step e).state.nextOwner = s.state.nextOwner + if e.makes then 1 else 0 := by
  cases e with
  | make name path => exact congrArg (· + 1) (s.nextOwner_give name)
  | ask name request =>
    cases found : s.find? name with
    | none =>
      rw [step_ask_of_none found]
      rfl
    | some h =>
      obtain ⟨-, -, l', -, sets⟩ := h.serve_turns request s.state
      rw [step_ask found]
      exact sets.nextOwner
  | drop name => exact s.nextOwner_give name

theorem nextOwner_run (s : LockHolders) (events : List LockEvent) :
    (s.run events).state.nextOwner = s.state.nextOwner + events.countP LockEvent.makes := by
  induction events generalizing s with
  | nil => rfl
  | cons e rest ih =>
    have later : (s.run (e :: rest)).state.nextOwner = _ := ih (s.step e)
    rw [later, nextOwner_step, List.countP_cons, Nat.add_assoc, Nat.add_comm (List.countP ..)]

theorem owner_lt_of_run {events : List LockEvent} (found : (start.run events).find? name = some h) :
    h.owner < events.countP LockEvent.makes := by
  have numbered := (run_accounted events).numbered name h found
  rw [nextOwner_run] at numbered
  exact Nat.lt_of_lt_of_eq numbered (Nat.zero_add _)

/-- Nobody loses a level, or is given one, by a request of another holder. -/
theorem holderAt_step_ask_iff (found : s.find? name = some h) (request : LockRequest) {o : Owner}
    (other : o ≠ h.owner) (key : Path.Key) (x : LockLevel) :
    ((s.step (.ask name request)).state.locks key).holderAt x = some o ↔
      (s.state.locks key).holderAt x = some o := by
  obtain ⟨-, -, l', turn, sets⟩ := h.serve_turns request s.state
  rw [step_ask found]
  by_cases here : key = h.path.key
  · subst here
    rw [show (s.turned name _ _).state.locks _ = l' from sets.here]
    exact turn.holderAt_other_iff other
  · rw [show (s.turned name _ _).state.locks key = _ from sets.elsewhere here]

end LockHolders
end MappedStorage
