import MappedStorage.Proofs.Provider.Holding
import MappedStorage.Proofs.Provider.Lockers
import MappedStorage.Proofs.Provider.Separation

/-!
Files that are closed. A file lets go of its locks, its index and its store when it is closed, and as long
as no lock and no new slot is asked of it after that it has none of them, and stands in nobody's way
(`OpenFiles.run_closed_file`). Nothing keeps it from taking them, though: a file does not look whether it is
closed when it is asked for a lock or for a slot.
-/

namespace MappedStorage

/-- The request may take a lock, or map the shared index. -/
def FileRequest.takes : FileRequest → Bool
  | .lock _ => true
  | .lockSlots _ _ op => op = .lockShared || op = .lockExclusive
  | .requestSlot _ _ extend => extend
  | _ => false

/-- What mapping a slot without `extend` does to an index that is not mapped: nothing. -/
theorem SharedIndex.requestSlot_of_none {x : SharedIndex} (absent : x.region? = none) (index slotSize : Nat)
    (p : Platform) : (x.requestSlot index slotSize false p).2 = (x, p) := by
  unfold requestSlot
  split
  · rfl
  · split
    · rename_i state
      cases (region?_of_state state).symm.trans absent
    · split <;> rfl

/-- The event opens or drops a file under a name. -/
def ProviderEvent.replaces (name : String) : ProviderEvent → Bool
  | .open other .. | .drop other => other = name
  | _ => false

namespace OpenFile

/-- A file has no lock and no index mapped if it is closed. -/
structure LetsGo (f : OpenFile) : Prop where
  quiet : f.Quiet
  idle : f.store.closed = true → ∀ h ∈ f.client.holder?, h.Idle

/-- A file that holds nothing: no level, no slot and no mapping of its index. To give it up is to do
nothing. -/
structure EmptyHanded (f : OpenFile) (s : Shared) : Prop where
  closed : f.store.closed = true
  idle : ∀ h ∈ f.client.holder?, h.Idle
  unmapped : f.indexRegion? = none
  dropped : f.drop s = s

/-- The file has a level of the locks of a path. -/
def HasLevel (f : OpenFile) (key : Path.Key) : Prop :=
  ∃ h, f.client = .inProcess h ∧ h.path.key = key ∧ h.level ≠ .none

/-- The file has a part of a slot of a path. -/
def HasSlot (f : OpenFile) (key : Path.Key) : Prop :=
  ∃ h i, f.client = .inProcess h ∧ h.path.key = key ∧ h.hold i ≠ {}

variable {f : OpenFile} {s : Shared} {request : FileRequest}

/-! ## One file -/

theorem requestSlot_quiet (quiet : f.Quiet) (isClosed : f.store.closed = true) (i slotSize : Nat) :
    (f.requestSlot i slotSize false s).2.1.indexRegion? = none := by
  have unmapped := quiet isClosed
  unfold requestSlot
  split
  · exact unmapped
  · rename_i x has
    have absent : x.region? = none := by rwa [indexRegion?, has, Option.bind_some] at unmapped
    have same := SharedIndex.requestSlot_of_none absent i slotSize s.platform
    exact (congrArg (·.1.region?) same).trans absent

/-- Only closing a file closes it. -/
theorem closed_serve (stays : request ≠ .close) :
    (f.serve request s).1.store.closed = f.store.closed := by
  cases request with
  | write offset data => exact (Store.write_same (t := s.regions) rfl).closed
  | sync flags => exact (Store.sync_same (t := s.regions) rfl).closed
  | requestSlot i slotSize extend => exact congrArg Store.closed (f.requestSlot_store i slotSize extend s).1
  | unmapIndex delete => exact congrArg Store.closed (f.unmapIndex_store delete s).1
  | close => exact absurd rfl stays
  | truncate | lock | unlock | lockSlots | fillSlot | storeWord | barrier => rfl

theorem closed_serve_of_closed (isClosed : f.store.closed = true) :
    (f.serve request s).1.store.closed = true := by
  by_cases closing : request = .close
  · rw [closing]
    exact closed_close f s
  · rw [closed_serve closing, isClosed]

/-- A file that lets go of everything when it is closed still does so after a request, as long as nothing is
taken while it is closed. -/
theorem LetsGo.serve (letsGo : f.LetsGo) (spares : f.store.closed = true → request.takes = false) :
    (f.serve request s).1.LetsGo := by
  constructor
  case quiet =>
    cases isClosed : f.store.closed with
    | false =>
      refine serve_quiet letsGo.quiet ?_
      cases request with
      | requestSlot => exact isClosed
      | _ => trivial
    | true =>
      have spares := spares isClosed
      cases request with
      | requestSlot i slotSize extend =>
        obtain rfl : extend = false := spares
        exact fun _ => requestSlot_quiet letsGo.quiet isClosed i slotSize
      | _ => exact serve_quiet letsGo.quiet trivial
  case idle =>
    intro closed
    rw [(f.serve_locks request s).1]
    cases client : f.client with
    | none => exact nofun
    | inProcess h =>
      cases isClosed : f.store.closed with
      | false =>
        -- Only closing has closed the file.
        have closing : request = .close := by
          by_contra stays
          rw [closed_serve stays, isClosed] at closed
          cases closed
        subst closing
        rw [lockRequest?, isClosed]
        rintro _ ⟨⟩
        exact h.release_idle s.locks
      | true =>
        have idle : h.Idle := letsGo.idle isClosed h (by rw [client]; rfl)
        have spares := spares isClosed
        cases request with
        | lock level => cases spares
        | unlock level =>
          rintro _ ⟨⟩
          show (h.unlock level s.locks).1.Idle
          rw [idle.unlock]
          exact idle
        | lockSlots offset n op =>
          rintro _ ⟨⟩
          refine idle.lockSlots ?_ offset n s.locks
          cases op with
          | lockShared | lockExclusive => cases spares
          | unlockShared => exact .inl rfl
          | unlockExclusive => exact .inr rfl
        | close =>
          rw [lockRequest?, isClosed]
          rintro _ ⟨⟩
          exact idle
        | write | truncate | sync | requestSlot | fillSlot | storeWord | barrier | unmapIndex =>
          rintro _ ⟨⟩
          exact idle

/-- Nothing is given up with a file that has let go of everything. -/
theorem LetsGo.emptyHanded (letsGo : f.LetsGo) (isClosed : f.store.closed = true) (s : Shared) :
    f.EmptyHanded s := by
  have idle := letsGo.idle isClosed
  have unmapped := letsGo.quiet isClosed
  have released : f.client.release s.locks = (f.client, s.locks) := by
    cases client : f.client with
    | none => rfl
    | inProcess h =>
      have idle : h.Idle := idle h (by rw [client]; rfl)
      rw [LockClient.release, idle.release]
  refine ⟨isClosed, idle, unmapped, ?_⟩
  rw [drop, close_of_closed isClosed]
  dsimp only
  rw [releaseLocks, released]
  dsimp only
  split
  · rfl
  · rename_i x has
    have absent : x.region? = none := by rwa [indexRegion?, has, Option.bind_some] at unmapped
    rw [SharedIndex.unmap_of_none absent]

end OpenFile

/-- A file that is opened holds nothing yet. -/
theorem Provider.openFile_letsGo {v : Provider} {path : Option Path} {flags : OpenFlags} {s s' : Shared}
    {f : OpenFile} (opened : v.openFile path flags s = (.ok f, s')) : f.LetsGo := by
  refine ⟨fun _ => openFile_unmapped opened, fun _ => ?_⟩
  obtain ⟨client, -⟩ | ⟨real, client, -⟩ :
      f.client = .none ∧ s'.locks = s.locks ∨ _ := openFile_locks opened
  · rw [client]
    exact nofun
  · rw [client]
    rintro _ ⟨⟩
    exact LockHolder.idle_addHolder s.locks real

namespace OpenFiles

/-- Nothing is taken by the file of a name once it is closed. -/
def Spares (name : String) (s : OpenFiles) : ProviderEvent → Prop
  | .ask other request => other = name →
    ∀ f, s.find? name = some f → f.store.closed = true → request.takes = false
  | _ => True

/-- What becomes of the file of a name: it is served if it is asked for something, replaced or dropped, and
stays as it is in all other events. -/
inductive Becomes (v : Provider) (s : OpenFiles) (name : String) :
    ProviderEvent → Option OpenFile → Prop
  | stays {e : ProviderEvent} : Becomes v s name e (s.find? name)
  | served {f : OpenFile} {request : FileRequest} (found : s.find? name = some f) :
      Becomes v s name (.ask name request) (some (f.serve request s.state).1)
  | opened {f : OpenFile} {path : Option Path} {flags : OpenFlags} {st : Shared}
      (opening : v.openFile path flags s.state = (.ok f, st)) :
      Becomes v s name (.open name path flags) (some f)
  | dropped : Becomes v s name (.drop name) none

/-- Whoever is refused a lock is refused it because of a file that is neither its own nor that of a name. -/
structure Unhindered (s : OpenFiles) (name : String) : Prop where
  levels : ∀ other g h level, s.find? other = some g → g.client = .inProcess h →
    (g.lock level s.state).1 = .error .busy →
    ∃ third f, third ≠ other ∧ third ≠ name ∧ s.find? third = some f ∧ f.HasLevel h.path.key
  slots : ∀ other g h offset n op, s.find? other = some g → g.client = .inProcess h →
    (g.lockSlots offset n op s.state).1 = .error .busy →
    ∃ third f, third ≠ other ∧ third ≠ name ∧ s.find? third = some f ∧ f.HasSlot h.path.key

variable {v : Provider} {s : OpenFiles} {l : LockHolders} {name : String} {f g : OpenFile}
  {e : ProviderEvent}

/-! ## Steps -/

theorem step_becomes (v : Provider) (s : OpenFiles) (name : String) (e : ProviderEvent) :
    s.Becomes v name e ((s.step v e).find? name) := by
  cases e with
  | «open» other path flags =>
    rcases opening : v.openFile path flags s.state with ⟨result, st⟩
    simp only [step, Session.enter, opening]
    cases result with
    | error e => exact .stays
    | ok f =>
      rw [Session.find?_put, Session.find?_drop]
      split
      · rename_i here
        rw [← here]
        exact .opened opening
      · exact .stays
  | ask other request =>
    cases found : s.find? other with
    | none =>
      rw [step_ask_of_none found]
      exact .stays
    | some f =>
      have updated : (s.update other (f.serve request s.state).1).find? name =
          if name = other then some (f.serve request s.state).1 else s.find? name :=
        Session.find?_update found _
      rw [step_ask found, show Session.find? { s.update other (f.serve request s.state).1 with
        state := (f.serve request s.state).2 } name = _ from updated]
      split
      · rename_i here
        rw [here]
        exact .served found
      · exact .stays
  | drop other =>
    rw [step, Session.find?_drop]
    split
    · rename_i here
      rw [here]
      exact .dropped
    · exact .stays
  | sizeOf | delete | outside => exact .stays

/-- The file of a name lets go of everything when it is closed. -/
def LetsGo (s : OpenFiles) (name : String) : Prop := ∀ f, s.find? name = some f → f.LetsGo

theorem step_letsGo (letsGo : s.LetsGo name) (spares : s.Spares name e) : (s.step v e).LetsGo name := by
  intro f there
  have becomes := step_becomes v s name e
  rw [there] at becomes
  generalize after : some f = outcome at becomes
  cases becomes with
  | stays => exact letsGo f after.symm
  | served found =>
    cases after
    exact (letsGo _ found).serve (spares rfl _ found)
  | opened opening =>
    cases after
    exact Provider.openFile_letsGo opening
  | dropped => cases after

/-- A file that is closed stays closed. -/
theorem run_closed {events : List ProviderEvent} (kept : ∀ e ∈ events, e.replaces name = false)
    (found : s.find? name = some f) (isClosed : f.store.closed = true) :
    ∃ f', (s.run v events).find? name = some f' ∧ f'.store.closed = true := by
  induction events generalizing s f with
  | nil => exact ⟨f, found, isClosed⟩
  | cons e rest ih =>
    have kept_rest : ∀ e ∈ rest, e.replaces name = false := fun e member => kept e (.tail _ member)
    have kept := kept e (.head _)
    have becomes := step_becomes v s name e
    generalize there : (s.step v e).find? name = outcome at becomes
    cases becomes with
    | stays => exact ih kept_rest (there.trans found) isClosed
    | served found' =>
      cases found.symm.trans found'
      exact ih kept_rest there (OpenFile.closed_serve_of_closed isClosed)
    | opened opening => simp [ProviderEvent.replaces] at kept
    | dropped => simp [ProviderEvent.replaces] at kept

/-! ## Refusals -/

theorem Mirrors.find? (mirrors : s.Mirrors l) {h : LockHolder} (found : s.find? name = some f)
    (client : f.client = .inProcess h) : l.find? name = some h := by
  rw [mirrors.holder, found, Option.bind_some, client]
  rfl

/-- A holder is that of a file. -/
theorem Mirrors.file (mirrors : s.Mirrors l) {h : LockHolder} (there : l.find? name = some h) :
    ∃ f, s.find? name = some f ∧ f.client = .inProcess h := by
  rw [mirrors.holder] at there
  obtain ⟨f, found, held⟩ := Option.bind_eq_some_iff.mp there
  refine ⟨f, found, ?_⟩
  cases client : f.client with
  | none =>
    rw [client] at held
    cases held
  | inProcess g =>
    rw [client] at held
    cases held
    rfl

/-- A file that holds nothing hinders nobody. -/
theorem Mirrors.unhindered (mirrors : s.Mirrors l) (accounted : l.Accounted) (exact_ : l.SlotsExact)
    (covered : l.Covered) (found : s.find? name = some f) (idle : ∀ h ∈ f.client.holder?, h.Idle) :
    s.Unhindered name := by
  have idle_at {h : LockHolder} (there : l.find? name = some h) : h.Idle := by
    obtain ⟨f', found', client⟩ := mirrors.file there
    cases found.symm.trans found'
    exact idle h (by rw [client]; rfl)
  constructor
  case levels =>
    intro other g h level there client busy
    have busy : (h.lock level l.state).1 = .error .busy := by
      rw [mirrors.table]
      rw [OpenFile.lock, client] at busy
      exact busy
    obtain ⟨third, h', different, there', same, some⟩ :=
      LockHolders.other_of_lock_busy accounted covered (mirrors.find? there client) busy
    obtain ⟨f', found', client'⟩ := mirrors.file there'
    refine ⟨third, f', different, ?_, found', h', client', same, some⟩
    rintro rfl
    exact some (idle_at there').level
  case slots =>
    intro other g h offset n op there client busy
    have busy : (h.lockSlots offset n op l.state).1 = .error .busy := by
      rw [mirrors.table]
      rw [OpenFile.lockSlots, client] at busy
      exact busy
    obtain ⟨third, h', i, different, there', same, some⟩ :=
      LockHolders.other_of_lockSlots_busy accounted exact_ (mirrors.find? there client) busy
    obtain ⟨f', found', client'⟩ := mirrors.file there'
    refine ⟨third, f', different, ?_, found', h', i, client', same, some⟩
    rintro rfl
    exact some ((idle_at there').slots i)

/-! ## Runs -/

/-- A file that has been closed stays empty-handed as long as neither a lock nor a slot that is not there is asked
of it: the table of locks names it nowhere, whoever is refused a lock is refused it because of some other
file, and where no other file is open on its path the region of its store is gone. -/
theorem run_closed_file (v : Provider) (p : Platform) (before after : List ProviderEvent) {name : String}
    {f : OpenFile} (found : ((start p).run v before).find? name = some f)
    (spares : (start p).Follows v (Spares name) (before ++ .ask name .close :: after))
    (kept : ∀ e ∈ after, e.replaces name = false) :
    let s := (start p).run v (before ++ .ask name .close :: after)
    ∃ f', s.find? name = some f' ∧ f'.EmptyHanded s.state ∧ s.Unhindered name ∧
      (∀ h ∈ f'.client.holder?, ∀ key, (∀ x, (s.state.locks.locks key).holderAt x ≠ some h.owner) ∧
        ∀ i : Fin slotCount, ((s.state.locks.locks key).slot i).exclusive ≠ some h.owner) ∧
      ((∀ other g, other ≠ name → s.find? other = some g → g.path.key = f'.path.key →
        g.store.closed = true) → s.state.regions.find? f'.path.key = none) := by
  intro s
  have letsGo : s.LetsGo name :=
    run_induction (fun _ _ => step_letsGo) spares fun _ none => by cases none
  obtain ⟨lockEvents, mirrors⟩ := run_lockers (v := v) (start_mirrors p) (before ++ .ask name .close :: after)
  have accounted := LockHolders.run_accounted lockEvents
  have exact_ := LockHolders.run_slotsExact LockHolders.start_slotsExact LockHolders.start_accounted lockEvents
  have covered := LockHolders.run_covered lockEvents
  have counts := run_counts (v := v) (start_counts p) (before ++ .ask name .close :: after)
  -- The file is closed by then, and stays closed.
  have closing : (((start p).run v before).step v (.ask name .close)).find? name =
      some (f.close ((start p).run v before).state).2.1 := by
    rw [step_ask found]
    exact (Session.find?_update found _).trans (if_pos rfl)
  obtain ⟨f', found', isClosed⟩ := run_closed (v := v) kept closing (f.closed_close _)
  have found' : s.find? name = some f' := by
    show ((start p).run v (before ++ .ask name .close :: after)).find? name = some f'
    rw [run, List.foldl_append]
    exact found'
  have emptyHanded := (letsGo f' found').emptyHanded isClosed s.state
  refine ⟨f', found', emptyHanded, mirrors.unhindered accounted exact_ covered found' emptyHanded.idle, ?_, ?_⟩
  · intro h held
    have there : (LockHolders.start.run lockEvents).find? name = some h := by
      rw [mirrors.holder, found', Option.bind_some]
      exact held
    have unnamed := LockHolders.unnamed_of_idle accounted exact_ there (emptyHanded.idle h held)
    rwa [mirrors.table] at unnamed
  · intro others
    refine find?_eq_none counts fun other g there same => ?_
    by_cases here : other = name
    · subst here
      cases found'.symm.trans there
      exact isClosed
    · exact others other g here there same

/-- A file may be asked for anything while it is open. -/
theorem spares_of_open {request : FileRequest}
    (isOpen : (s.find? name).map (·.store.closed) = some false) : s.Spares name (.ask name request) := by
  intro _ f found isClosed
  rw [found, Option.map_some, isClosed] at isOpen
  cases isOpen

/-- For instance a file that read and had a slot mapped: once it is closed another one may write. -/
theorem closed_reader_lets_write :
    let v : Provider :=
      { settings := { locking := .inProcess }, mapper := { detection := .emulated } }
    let opens : List ProviderEvent := [.open "a" (some ⟨[0x61]⟩) { kind := .mainDb },
      .open "b" (some ⟨[0x61]⟩) { kind := .mainDb }]
    let before := opens ++ [.ask "a" (.lock .shared), .ask "a" (.requestSlot 0 8 true)]
    let after : List ProviderEvent := [.ask "a" (.requestSlot 0 8 false), .ask "b" (.lock .shared)]
    let s := (start .empty).run v (before ++ .ask "a" .close :: after)
    (∀ e ∈ after, e.replaces "a" = false) ∧
      (∃ f, s.find? "a" = some f ∧ f.EmptyHanded s.state ∧ s.Unhindered "a") ∧
      (s.find? "b").map (fun g => (g.lock .exclusive s.state).1.isOk) = some true := by
  intro v opens before after s
  have there : (((start .empty).run v before).find? "a").isSome = true := by
    dsimp +zetaDelta only
    cbv
  have granted : (s.find? "b").map (fun g => (g.lock .exclusive s.state).1.isOk) = some true := by
    dsimp +zetaDelta only
    cbv
  have spares : (start .empty).Follows v (Spares "a") (before ++ .ask "a" .close :: after) := by
    have other : "b" ≠ "a" := by decide
    refine ⟨trivial, trivial, spares_of_open ?_, spares_of_open ?_, fun _ _ _ _ => rfl,
      fun _ _ _ _ => rfl, fun same => absurd same other, trivial⟩
    all_goals
      dsimp +zetaDelta only
      cbv
  have kept : ∀ e ∈ after, e.replaces "a" = false := by decide
  obtain ⟨f₀, found⟩ := Option.isSome_iff_exists.mp there
  obtain ⟨f, found', emptyHanded, unhindered, -⟩ := run_closed_file v .empty before after found spares kept
  exact ⟨kept, ⟨f, found', emptyHanded, unhindered⟩, granted⟩

/-- A file that is closed takes a level, a slot of the locks and a mapping of its index where it is asked to,
and another file is refused a lock and a slot for it. -/
theorem closed_file_blocks :
    let v : Provider :=
      { settings := { locking := .inProcess }, mapper := { detection := .emulated } }
    let s := (start .empty).run v [.open "a" (some ⟨[0x61]⟩) { kind := .mainDb },
      .open "b" (some ⟨[0x61]⟩) { kind := .mainDb }, .ask "a" .close, .ask "a" (.lock .shared),
      .ask "a" (.lockSlots 0 1 .lockExclusive), .ask "a" (.requestSlot 0 32768 true),
      .ask "b" (.lock .shared)]
    ∃ f g, s.find? "a" = some f ∧ f.store.closed = true ∧ f.client.level = .shared ∧
      f.indexRegion?.isSome = true ∧ s.find? "b" = some g ∧
      (g.lock .exclusive s.state).1 = .error .busy ∧
      (g.lockSlots 0 1 .lockShared s.state).1 = .error .busy := by
  intro v s
  have taken : (s.find? "a").map (fun f =>
      (f.store.closed, f.client.level, f.indexRegion?.isSome)) = some (true, .shared, true) := by
    dsimp +zetaDelta only
    cbv
  have refused : (s.find? "b").map (fun g =>
      ((g.lock .exclusive s.state).1, (g.lockSlots 0 1 .lockShared s.state).1)) =
        some (.error .busy, .error .busy) := by
    dsimp +zetaDelta only
    cbv
  obtain ⟨f, found, taken⟩ := Option.map_eq_some_iff.mp taken
  obtain ⟨g, found', refused⟩ := Option.map_eq_some_iff.mp refused
  injection taken with closed taken
  injection taken with level mapped
  injection refused with lock slots
  exact ⟨f, g, found, closed, level, mapped, found', lock, slots⟩

end OpenFiles
end MappedStorage
