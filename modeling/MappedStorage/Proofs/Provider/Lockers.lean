import Mathlib.Data.Fintype.EquivFin
import MappedStorage.Proofs.Locking.Refusals
import MappedStorage.Proofs.Provider.OpenFile

/-!
The files of a provider as holders of locks. Where locks are kept, each file is one of the holders that share
the table of the provider (`OpenFiles.Mirrors`), and whatever happens to files is a run of these holders
(`OpenFiles.run_lockers`), so that what every run of holders keeps holds for files as well.
-/

namespace MappedStorage

namespace LockClient

/-- The holder of a client, where locks are kept. -/
def holder? : LockClient → Option LockHolder
  | none => Option.none
  | inProcess h => some h

/-- What a request, if there is one, makes of a client and the table. -/
def after (k : LockClient) (request : Option LockRequest) (t : LockTable) : LockClient × LockTable :=
  match k, request with
  | inProcess h, some r => (inProcess (h.serve r t).2.1, (h.serve r t).2.2)
  | k, _ => (k, t)

@[simp] theorem after_none (k : LockClient) (t : LockTable) : k.after Option.none t = (k, t) := by
  cases k <;> rfl

theorem after_release (k : LockClient) (t : LockTable) : k.after (some .release) t = k.release t := by
  cases k <;> rfl

/-- To let go of everything twice is to do it once. -/
theorem release_release (k : LockClient) (t : LockTable) :
    (k.release t).1.release (k.release t).2 = k.release t := by
  cases k with
  | none => rfl
  | inProcess h =>
    simp only [release, (h.release_idle t).release]

end LockClient

namespace OpenFile

/-- What a request to a file asks of its holder of locks. -/
def lockRequest? (f : OpenFile) : FileRequest → Option LockRequest
  | .lock level => some (.lock level)
  | .unlock level => some (.unlock level)
  | .lockSlots offset n op => some (.lockSlots offset n op)
  | .close => if f.store.closed then none else some .release
  | _ => none

variable {f : OpenFile} {s : Shared}

theorem unmapIndex_locks (f : OpenFile) (delete : Bool) (s : Shared) :
    (f.unmapIndex delete s).2.1.client = f.client ∧ (f.unmapIndex delete s).2.2.locks = s.locks := by
  unfold unmapIndex
  split <;> exact ⟨rfl, rfl⟩

theorem close_locks (f : OpenFile) (s : Shared) :
    (f.close s).2.1.client = (f.client.after (f.lockRequest? .close) s.locks).1 ∧
      (f.close s).2.2.locks = (f.client.after (f.lockRequest? .close) s.locks).2 := by
  cases isClosed : f.store.closed with
  | true =>
    simp only [close_of_closed isClosed, lockRequest?, isClosed, if_true, LockClient.after_none, true_and]
  | false =>
    simp only [lockRequest?, isClosed, Bool.false_eq_true, if_false, LockClient.after_release]
    rw [close_eq isClosed]
    exact (f.releaseLocks s).1.unmapIndex_locks false (f.releaseLocks s).2

/-- A request reaches the table of locks through the holder of the file. -/
theorem serve_locks (f : OpenFile) (request : FileRequest) (s : Shared) :
    (f.serve request s).1.client = (f.client.after (f.lockRequest? request) s.locks).1 ∧
      (f.serve request s).2.locks = (f.client.after (f.lockRequest? request) s.locks).2 := by
  have still {g : OpenFile} {q : Shared} (same : g.client = f.client ∧ q.locks = s.locks) :
      g.client = (f.client.after none s.locks).1 ∧ q.locks = (f.client.after none s.locks).2 := by
    rwa [LockClient.after_none]
  cases request with
  | lock level | unlock level | lockSlots offset n op =>
    rcases f with ⟨kind, store, index, _ | h, sectorSize⟩ <;> exact ⟨rfl, rfl⟩
  | close => exact f.close_locks s
  | unmapIndex delete => exact still (f.unmapIndex_locks delete s)
  | write offset data | sync flags | truncate size => exact still ⟨rfl, rfl⟩
  | requestSlot i slotSize extend =>
    refine still ?_
    unfold serve requestSlot
    dsimp only
    split <;> exact ⟨rfl, rfl⟩
  | fillSlot slot byte => exact still ⟨rfl, (f.fillSlot_table slot byte s).2⟩
  | storeWord slot i word => exact still ⟨rfl, (f.storeWord_table slot i word s).2⟩
  | barrier => exact still ⟨rfl, (f.barrier_table s).2⟩

/-- What a file lets go of once it is closed, and while it is, is what it held before. -/
theorem release_close (f : OpenFile) (s : Shared) :
    (f.close s).2.1.client.release (f.close s).2.2.locks = f.client.release s.locks := by
  obtain ⟨client, locks⟩ := f.close_locks s
  rw [client, locks]
  cases isClosed : f.store.closed with
  | true => simp only [lockRequest?, isClosed, if_true, LockClient.after_none]
  | false =>
    simp only [lockRequest?, isClosed, Bool.false_eq_true, if_false, LockClient.after_release,
      LockClient.release_release]

/-- A file that is dropped lets go of its locks. -/
theorem drop_locks (f : OpenFile) (s : Shared) : (f.drop s).locks = (f.client.release s.locks).2 := by
  rw [← f.release_close s]
  rcases closing : f.close s with ⟨result, f', s'⟩
  rw [drop_eq closing, ((f'.releaseLocks s').1.unmapIndex_locks false _).2]
  rfl

end OpenFile

namespace Provider

variable {v : Provider} {path : Option Path} {flags : OpenFlags} {s s' : Shared}

/-- What opening a file does to the locks: nothing if it fails, and otherwise at most a holder is made. -/
theorem openFile_locks {result : Except ProviderError OpenFile}
    (opened : v.openFile path flags s = (result, s')) :
    match result with
    | .error _ => s'.locks = s.locks
    | .ok f => f.client = .none ∧ s'.locks = s.locks ∨ ∃ real,
        f.client = .inProcess (s.locks.addHolder real).1 ∧ s'.locks = (s.locks.addHolder real).2 := by
  cases openFile_opened opened with
  | refused e => rfl
  | failed _ _ => rfl
  | opened _ _ made =>
    obtain kept | ⟨client, locks⟩ := (assemble_correct made).locks
    · exact .inl kept
    · exact .inr ⟨_, client, locks⟩

/-- A file that is opened for its size leaves no lock, but may have used a number up. -/
theorem sizeOf_locks (v : Provider) (path : Option Path) (flags : OpenFlags) (s : Shared) :
    (v.sizeOf path flags s).2.locks = s.locks ∨
      ∃ real, (v.sizeOf path flags s).2.locks = (s.locks.addHolder real).2 := by
  rcases asked : v.sizeOf path flags s with ⟨_, s'⟩
  cases sizeOf_sized asked with
  | failed opening => exact .inl (openFile_locks opening)
  | @sized f f' s₁ s₂ opening closing =>
    have released := f.release_close s₁
    rw [closing] at released
    rw [OpenFile.drop_locks, released]
    obtain ⟨none, same⟩ | ⟨real, some, made⟩ :
        f.client = .none ∧ s₁.locks = s.locks ∨ _ := openFile_locks opening
    · rw [none]
      exact .inl same
    · rw [some, LockClient.release, (LockHolder.idle_addHolder s.locks real).release]
      exact .inr ⟨real, made⟩

end Provider

/-! ## Holders -/

namespace LockHolders

variable {l : LockHolders} {name : String} {path : Path}

/-- The holders once a number for one has been used up. -/
def spend (l : LockHolders) (path : Path) : LockHolders :=
  { l with state := (l.state.addHolder path).2 }

theorem find?_give (l : LockHolders) (name other : String) :
    (l.give name).find? other = if other = name then none else l.find? other :=
  Session.find?_drop ..

theorem give_spend (l : LockHolders) (name : String) (path : Path) :
    (l.spend path).give name = (l.give name).spend path := by
  have there : (l.spend path).find? name = l.find? name := rfl
  unfold give Session.drop
  rw [there]
  cases l.find? name with
  | none => rfl
  | some h =>
    simp only [spend, LockHolder.release_addHolder]
    rfl

/-- A holder that is made and dropped under a name that is free. -/
theorem exists_run_spend (l : LockHolders) (path : Path) :
    ∃ events, (l.run events).state = (l.spend path).state ∧
      ∀ other, (l.run events).find? other = l.find? other := by
  obtain ⟨name, free⟩ : ∃ name : String, name ∉ (l.objects.entries.map (·.1)).toFinset :=
    Infinite.exists_notMem_finset _
  have absent : l.find? name = none := by
    by_contra present
    exact free (List.mem_toFinset.mpr (Keyed.mem_keys_iff.mpr present))
  have made : (l.join name path).find? name = some (l.state.addHolder path).1 :=
    (find?_join ..).trans (if_pos rfl)
  have released := (LockHolder.idle_addHolder l.state path).release (l.join name path).state
  have run : l.run [.make name path, .drop name] = (l.join name path).give name := by
    show ((l.give name).join name path).give name = _
    rw [give_of_none absent]
  refine ⟨[.make name path, .drop name], ?_, fun other => ?_⟩
  · rw [run, give_of_find? made, released]
    rfl
  · rw [run, find?_give]
    split
    · rename_i here
      rw [here, absent]
    · rename_i different
      exact (find?_join ..).trans (if_neg different)

theorem run_append (l : LockHolders) (before after : List LockEvent) :
    l.run (before ++ after) = (l.run before).run after := List.foldl_append

end LockHolders

/-! ## Files as holders -/

namespace OpenFiles

/-- The holders are those of the files, on one table. -/
structure Mirrors (s : OpenFiles) (l : LockHolders) : Prop where
  table : l.state = s.state.locks
  holder : ∀ name, l.find? name = (s.find? name).bind (·.client.holder?)

variable {v : Provider} {s : OpenFiles} {l : LockHolders} {name : String} {f f' : OpenFile} {st : Shared}

theorem start_mirrors (p : Platform) : (start p).Mirrors .start := ⟨rfl, fun _ => rfl⟩

theorem Mirrors.of_state (mirrors : s.Mirrors l) (same : st.locks = s.state.locks) :
    Mirrors { s with state := st } l := ⟨mirrors.table.trans same.symm, mirrors.holder⟩

theorem Mirrors.of_spent {real : Path} (mirrors : s.Mirrors l)
    (spent : st.locks = (s.state.locks.addHolder real).2) :
    Mirrors { s with state := st } (l.spend real) := by
  refine ⟨?_, mirrors.holder⟩
  show (l.state.addHolder real).2 = st.locks
  rw [mirrors.table, spent]

theorem Mirrors.drop (mirrors : s.Mirrors l) (name : String) :
    Mirrors (s.drop name OpenFile.drop) (l.give name) := by
  refine ⟨?_, fun other => ?_⟩
  · cases found : s.find? name with
    | none =>
      have absent : l.find? name = none := by rw [mirrors.holder, found, Option.bind_none]
      rw [LockHolders.give_of_none absent, Session.drop, found]
      exact mirrors.table
    | some f =>
      have there : l.find? name = f.client.holder? := by rw [mirrors.holder, found, Option.bind_some]
      have state : (s.drop name OpenFile.drop).state = f.drop s.state := by rw [Session.drop, found]
      rw [state, OpenFile.drop_locks]
      cases client : f.client with
      | none =>
        rw [client] at there
        rw [LockHolders.give_of_none there]
        exact mirrors.table
      | inProcess h =>
        rw [client] at there
        rw [LockHolders.give_of_find? there, mirrors.table]
        rfl
  · rw [LockHolders.find?_give, Session.find?_drop, mirrors.holder]
    split
    · rfl
    · rfl

/-- What a file is asked for, its holder is asked for. -/
theorem Mirrors.serve (mirrors : s.Mirrors l) (found : s.find? name = some f) (request : FileRequest) :
    Mirrors { s.update name (f.serve request s.state).1 with state := (f.serve request s.state).2 }
      (l.run ((f.lockRequest? request).toList.map (.ask name))) := by
  obtain ⟨client, locks⟩ := f.serve_locks request s.state
  have there : l.find? name = f.client.holder? := by rw [mirrors.holder, found, Option.bind_some]
  have updated (other : String) :
      Session.find? { s.update name (f.serve request s.state).1 with
        state := (f.serve request s.state).2 } other =
          if other = name then some (f.serve request s.state).1 else s.find? other :=
    Session.find?_update found _
  -- Unless a holder is asked for something, the client and the table stay.
  have idle (same : f.client.after (f.lockRequest? request) s.state.locks = (f.client, s.state.locks)) :
      Mirrors { s.update name (f.serve request s.state).1 with
        state := (f.serve request s.state).2 } l := by
    rw [same] at client locks
    refine ⟨mirrors.table.trans locks.symm, fun other => ?_⟩
    rw [updated, mirrors.holder]
    split
    · rename_i here
      rw [here, found, Option.bind_some, Option.bind_some, client]
    · rfl
  cases asked : f.lockRequest? request with
  | none =>
    rw [asked, LockClient.after_none] at idle
    exact idle rfl
  | some r =>
    show Mirrors _ (l.step (.ask name r))
    cases keeper : f.client with
    | none =>
      rw [keeper] at idle there
      rw [LockHolders.step_ask_of_none there]
      exact idle rfl
    | inProcess h =>
      rw [keeper, asked] at client locks
      rw [keeper] at there
      rw [LockHolders.step_ask there]
      refine ⟨?_, fun other => ?_⟩
      · show (h.serve r l.state).2.2 = _
        rw [mirrors.table]
        exact locks.symm
      · show (l.turned name _ _).find? other = _
        rw [LockHolders.find?_turned there, updated, mirrors.holder, mirrors.table]
        split
        · rw [Option.bind_some, client]
          rfl
        · rfl

theorem Mirrors.put (mirrors : s.Mirrors l) (absent : s.find? name = none) :
    f.client = .none → Mirrors (s.put name f) l := by
  intro client
  refine ⟨mirrors.table, fun other => ?_⟩
  rw [Session.find?_put, mirrors.holder]
  split
  · rename_i here
    rw [here, absent, Option.bind_some, client]
    rfl
  · rfl

/-- A file whose holder has the number that was used up last. -/
theorem Mirrors.put_holder {real : Path} (mirrors : s.Mirrors (l.spend real))
    (client : f.client = .inProcess (l.state.addHolder real).1) :
    Mirrors (s.put name f) (l.join name real) := by
  refine ⟨mirrors.table, fun other => ?_⟩
  rw [Session.find?_put, LockHolders.find?_join]
  split
  · rw [Option.bind_some, client]
    rfl
  · exact mirrors.holder other

/-- Whatever happens to files happens to holders. -/
theorem step_lockers (mirrors : s.Mirrors l) (e : ProviderEvent) :
    ∃ events, (s.step v e).Mirrors (l.run events) := by
  cases e with
  | «open» name path flags =>
    rcases opening : v.openFile path flags s.state with ⟨result, st⟩
    have locks := Provider.openFile_locks opening
    simp only [step, Session.enter, opening]
    cases result with
    | error e => exact ⟨[], mirrors.of_state locks⟩
    | ok f =>
      have absent : Session.find? (Session.drop { s with state := st } name OpenFile.drop) name = none := by
        rw [Session.find?_drop, if_pos rfl]
      obtain ⟨none, same⟩ | ⟨real, some, made⟩ := locks
      · exact ⟨[.drop name], ((mirrors.of_state same).drop name).put absent none⟩
      · have dropped := (mirrors.of_spent made).drop name
        rw [LockHolders.give_spend] at dropped
        refine ⟨[.make name real], dropped.put_holder ?_⟩
        rw [some, LockTable.addHolder, LockTable.addHolder, l.nextOwner_give name, mirrors.table]
  | ask name request =>
    cases found : s.find? name with
    | none =>
      rw [step_ask_of_none found]
      exact ⟨[], mirrors⟩
    | some f =>
      rw [step_ask found]
      exact ⟨_, mirrors.serve found request⟩
  | drop name => exact ⟨[.drop name], mirrors.drop name⟩
  | sizeOf path flags =>
    obtain same | ⟨real, spent⟩ := v.sizeOf_locks path flags s.state
    · exact ⟨[], mirrors.of_state same⟩
    · obtain ⟨events, state, others⟩ := l.exists_run_spend real
      have spending := mirrors.of_spent spent
      exact ⟨events, state.trans spending.table, fun other => (others other).trans (spending.holder other)⟩
  | delete path syncing => exact ⟨[], mirrors.of_state (v.delete_table path syncing s.state).2⟩
  | outside files => exact ⟨[], mirrors.of_state rfl⟩

/-- The files of a provider are holders that have come as far by a run of theirs. -/
theorem run_lockers (mirrors : s.Mirrors l) (events : List ProviderEvent) :
    ∃ lockEvents, (s.run v events).Mirrors (l.run lockEvents) := by
  induction events generalizing s l with
  | nil => exact ⟨[], mirrors⟩
  | cons e rest ih =>
    obtain ⟨first, stepped⟩ := step_lockers (v := v) mirrors e
    obtain ⟨later, ran⟩ := ih stepped
    refine ⟨first ++ later, ?_⟩
    rw [LockHolders.run_append]
    exact ran

end OpenFiles
end MappedStorage
