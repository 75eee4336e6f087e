import MappedStorage.Proofs.Mapping.Closing
import MappedStorage.Proofs.Provider.RegionsInUse

/-!
Closing a file. Whichever calls fail, the locks of the file are let go, its index and, with the last file of a path,
the region of its store are closed, and the failure of the store is reported before that of the index
(`OpenFile.close_of_held`). Other files keep their locks, their sizes and, as long as no region of theirs is over the
file of the store, their bytes (`OpenFiles.run_close`).
-/

namespace MappedStorage

/-- One store lets go of a region, which the last one closes. -/
def HeldRegion.letGo (held : HeldRegion) (p : Platform) : Except ProviderError Unit × Platform :=
  if 1 < held.stores then (.ok (), p)
  else ((held.region.close p).1.mapError (.ofRegion .closing), (held.region.close p).2.2)

/-- What is left of a region once one of its stores is gone. -/
def HeldRegion.less? (held : HeldRegion) : Option HeldRegion :=
  if 1 < held.stores then some { held with stores := held.stores - 1 } else none

namespace OpenFile

/-- The region of the index is closed, if there is one. -/
def closeIndex (f : OpenFile) (p : Platform) : Except ProviderError Unit × Platform :=
  match f.indexRegion? with
  | none => (.ok (), p)
  | some r => ((r.close p).1.mapError (.ofRegion .indexUnmapping), (r.close p).2.2)

/-- The file has a level of the locks of a path, and so reads there. -/
def reads (f : OpenFile) (key : Path.Key) : Bool := f.client.holder?.any (·.reads key)

/-- The file shares a slot of the locks of a path. -/
def shares (f : OpenFile) (key : Path.Key) (i : Fin slotCount) : Bool :=
  f.client.holder?.any fun h => decide (h.path.key = key) && (h.hold i).shared

/-- A file that is closed: it has nothing to read or write, and closing it again does nothing. -/
structure Shut (f : OpenFile) : Prop where
  reads : ∀ offset buffer s, f.readInto offset buffer s = (.error .closed, buffer)
  writes : ∀ offset data s, f.write offset data s = (.error .closed, f, s)
  syncs : ∀ flags s, f.sync flags s = (.error .closed, f, s)
  size : ∀ s, f.fileSize s = .error .closed
  closes : ∀ s, f.close s = (.ok (), f, s)

/-- A file shows the same bytes in two states. -/
structure ShowsSame (g : OpenFile) (s s' : Shared) : Prop where
  reads : ∀ offset buffer, g.readInto offset buffer s' = g.readInto offset buffer s
  fetches : ∀ offset len, g.fetch? offset len s' = g.fetch? offset len s
  slots : ∀ slot, g.readSlot? slot s' = g.readSlot? slot s
  words : ∀ slot words i, g.wordsOf? slot = some words →
    words.load i s'.platform = words.load i s.platform

end OpenFile

/-- The last store trims the file of the region, and takes its mapping down. -/
theorem HeldRegion.letGo_platform {held : HeldRegion} (isOpen : held.region.closed = false) (p : Platform) :
    (held.letGo p).2.files = (if 1 < held.stores then p.files else held.region.trimmedFiles p.files) ∧
      (held.letGo p).2.live =
        if 1 < held.stores then p.live else p.live.diff held.region.mapped.toList := by
  rw [letGo]
  split
  · exact ⟨rfl, rfl⟩
  · exact held.region.close_platform isOpen p

namespace OpenFile

variable {f g : OpenFile} {s s' : Shared} {held : HeldRegion}

/-! ## One file -/

theorem shut_of_closed (isClosed : f.store.closed = true) : f.Shut := by
  have region (t : RegionTable) : f.store.region? t = none := by rw [Store.region?, if_pos isClosed]
  constructor
  case reads => exact fun offset buffer s => by rw [readInto, Store.readInto, region]
  case writes => exact fun offset data s => by rw [write, Store.write, region]
  case syncs => exact fun flags s => by rw [sync, Store.sync, region]
  case size => exact fun s => by rw [fileSize, if_pos isClosed]
  case closes => exact close_of_closed isClosed

theorem unmapIndex_eq (f : OpenFile) (s : Shared) :
    (f.unmapIndex false s).1 = (f.closeIndex s.platform).1 ∧
      (f.unmapIndex false s).2.1.indexRegion? = none ∧
      (f.unmapIndex false s).2.2 = { s with platform := (f.closeIndex s.platform).2 } := by
  have absent : f.indexRegion? = none → f.closeIndex s.platform = (.ok (), s.platform) := by
    intro none
    rw [closeIndex, none]
  rw [unmapIndex]
  cases has : f.index with
  | none =>
    have none : f.indexRegion? = none := by rw [indexRegion?, has, Option.bind_none]
    rw [absent none]
    exact ⟨rfl, none, rfl⟩
  | some x =>
    have region : f.indexRegion? = x.region? := by rw [indexRegion?, has, Option.bind_some]
    cases found : x.region? with
    | none =>
      rw [found] at region
      dsimp only
      rw [SharedIndex.unmap_of_none found, absent region]
      exact ⟨rfl, found, rfl⟩
    | some r =>
      rw [found] at region
      cases state : x.state with
      | unallocated | unmapped =>
        rw [SharedIndex.region?, state] at found
        cases found
      | allocated r' size =>
        rw [SharedIndex.region?, state] at found
        cases found
        simp only [closeIndex, region, SharedIndex.unmap, state]
        rcases r.close s.platform with ⟨_ | _, r', q⟩ <;> exact ⟨rfl, rfl, rfl⟩

theorem closeStore_of_held (isOpen : f.store.closed = false)
    (found : s.regions.find? f.path.key = some held) :
    (f.closeStore s).1 = (held.letGo s.platform).1 ∧
      (f.closeStore s).2.1 = { f with store := { f.store with closed := true } } ∧
      (f.closeStore s).2.2.platform = (held.letGo s.platform).2 ∧
      s.regions.Differs f.path.key held.less? (f.closeStore s).2.2.regions := by
  have found : s.regions.find? f.store.path.key = some held := found
  rw [closeStore, Store.close, isOpen, if_neg Bool.false_ne_true, Store.release, found]
  dsimp only
  rw [HeldRegion.letGo, HeldRegion.less?]
  by_cases shared : 1 < held.stores
  · rw [if_pos shared, if_pos shared, if_pos shared]
    exact ⟨rfl, rfl, rfl, s.regions.differs_insert _ _⟩
  · rw [if_neg shared, if_neg shared, if_neg shared]
    rcases held.region.close s.platform with ⟨_ | _, r, q⟩ <;>
      exact ⟨rfl, rfl, rfl, s.regions.differs_erase _⟩

theorem ShowsSame.of_regions (region : g.store.region? s'.regions = g.store.region? s.regions)
    (store : ∀ r, g.store.region? s.regions = some r → r.ShowsSame s.platform s'.platform)
    (index : ∀ r, g.indexRegion? = some r → r.ShowsSame s.platform s'.platform) : g.ShowsSame s s' := by
  constructor
  case reads =>
    intro offset buffer
    rw [readInto, readInto, Store.readInto, Store.readInto, region]
    cases found : g.store.region? s.regions with
    | none => rfl
    | some r => simp only [(store r found).readInto]
  case fetches =>
    intro offset len
    rw [fetch?, fetch?, Store.fetch?, Store.fetch?, region]
    cases found : g.store.region? s.regions with
    | none => rfl
    | some r => simp only [(store r found).bytes?]
  case slots =>
    intro slot
    rw [readSlot?, readSlot?]
    cases has : g.index with
    | none => rfl
    | some x =>
      rw [indexRegion?, has] at index
      rw [Option.bind_some, Option.bind_some, SharedIndex.readSlot?, SharedIndex.readSlot?]
      cases found : x.region? with
      | none => rfl
      | some r => exact (index r found).bytes? slot.span
  case words =>
    intro slot words i seen
    obtain ⟨x, has, seen⟩ := Option.bind_eq_some_iff.mp seen
    obtain ⟨r, found, seen⟩ := Option.bind_eq_some_iff.mp seen
    rw [indexRegion?, has] at index
    exact (index r found).load seen i

/-- What closing an open file comes to. -/
theorem close_of_held (isOpen : f.store.closed = false)
    (found : s.regions.find? f.path.key = some held) :
    let p := (f.closeIndex s.platform).2
    (f.close s).1 = ((held.letGo p).1 >>= fun _ => (f.closeIndex s.platform).1) ∧
      (f.close s).2.1.indexRegion? = none ∧ (f.close s).2.2.platform = (held.letGo p).2 ∧
      s.regions.Differs f.path.key held.less? (f.close s).2.2.regions := by
  intro p
  obtain ⟨result, unmapped, shared⟩ := (f.releaseLocks s).1.unmapIndex_eq (f.releaseLocks s).2
  have store := ((f.releaseLocks s).1.unmapIndex_store false (f.releaseLocks s).2).1
  rw [close, if_neg (by simp [isOpen])]
  dsimp only
  rcases unmapping : (f.releaseLocks s).1.unmapIndex false (f.releaseLocks s).2 with ⟨first, f₁, s₁⟩
  rw [unmapping] at result unmapped shared store
  dsimp only at result unmapped shared store ⊢
  have open₁ : f₁.store.closed = false := by rw [store]; exact isOpen
  have found₁ : s₁.regions.find? f₁.path.key = some held := by
    rw [shared, path, store]
    exact found
  obtain ⟨stored, file, platform, regions⟩ := closeStore_of_held open₁ found₁
  rcases closing : f₁.closeStore s₁ with ⟨second, f₂, s₂⟩
  rw [closing] at stored file platform regions
  dsimp only at stored file platform regions
  have kept : f₂.indexRegion? = none := by rw [file]; exact unmapped
  rw [path, store, shared] at regions
  rw [shared] at stored platform
  have first_eq : first = (f.closeIndex s.platform).1 := result
  have second_eq : second = (held.letGo p).1 := stored
  rw [← first_eq, ← second_eq]
  cases second <;> exact ⟨rfl, kept, platform, regions⟩

/-- Closing the index takes its mapping down and leaves the files, which it does not trim. -/
theorem closeIndex_platform (lasting : f.Lasting) (p : Platform) : (f.closeIndex p).2.files = p.files ∧
    (f.closeIndex p).2.live = p.live.diff (f.indexRegion?.bind (·.mapped)).toList := by
  rw [closeIndex]
  cases has : f.indexRegion? with
  | none => exact ⟨rfl, rfl⟩
  | some r =>
    obtain ⟨x, there, found⟩ := Option.bind_eq_some_iff.mp has
    obtain ⟨isOpen, untrimmed⟩ := (lasting x there).region r found
    obtain ⟨files, live⟩ := r.close_platform isOpen p
    exact ⟨files.trans (r.trimmedFiles_of_untrimmed untrimmed _), live⟩

end OpenFile

namespace OpenFiles

/-- How many files have a level of the locks of a path. -/
def readers (s : OpenFiles) (key : Path.Key) : Nat := s.objects.count (·.reads key)

/-- How many files share a slot of the locks of a path. -/
def sharers (s : OpenFiles) (key : Path.Key) (i : Fin slotCount) : Nat := s.objects.count (·.shares key i)

/-- No mapping shows the file of a region but that of the region and, if it does, the index of a file. -/
def Sole (s : OpenFiles) (name : String) (f : OpenFile) (held : HeldRegion) : Prop :=
  ∀ site r, s.openRegions.region? site = some r → site ≠ .store f.path.key → site ≠ .index name →
    ∀ m ∈ r.mapped, m.file ≠ held.region.fileId

/-- The locks of a file are gone: nothing names its holder, and the counters leave it out. -/
structure Unlocked (s : OpenFiles) (f : OpenFile) (s' : OpenFiles) : Prop where
  unnamed : ∀ h ∈ f.client.holder?, ∀ key, (∀ x, (s'.state.locks.locks key).holderAt x ≠ some h.owner) ∧
    ∀ i : Fin slotCount, ((s'.state.locks.locks key).slot i).exclusive ≠ some h.owner
  sharers : ∀ key (i : Fin slotCount), ((s'.state.locks.locks key).slot i).shared = s'.sharers key i
  /-- A holder that leaps makes the counter wrong. -/
  readers : ∀ key, (s.state.locks.locks key).shared = s.readers key →
    (s'.state.locks.locks key).shared = s'.readers key

/-- The mappings of a file are gone: that of its index, and with the last store of a path that of the region, the
file of which is trimmed. No other file is touched, and no name. -/
structure Unmapped (s : OpenFiles) (f : OpenFile) (held : HeldRegion) (s' : OpenFiles) : Prop where
  table : s.state.regions.Differs f.path.key held.less? s'.state.regions
  live : s'.state.platform.live = (s.state.platform.live.diff (f.indexRegion?.bind (·.mapped)).toList).diff
    (if 1 < held.stores then [] else held.region.mapped.toList)
  files : s'.state.platform.files =
    if 1 < held.stores then s.state.platform.files else held.region.trimmedFiles s.state.platform.files
  names : s.state.platform.files.SameNames s'.state.platform.files
  others : ∀ id, id ≠ held.region.fileId → s'.state.platform.files.file id = s.state.platform.files.file id

/-- A file is as it was when another one has been closed: it has its locks and its size, and shows the same bytes
unless the file of the region has been trimmed under another mapping. -/
structure Unmoved (s : OpenFiles) (name : String) (f : OpenFile) (held : HeldRegion) (s' : OpenFiles)
    (other : String) (g : OpenFile) : Prop where
  found : s'.find? other = some g
  locks : ∀ h ∈ g.client.holder?, s.state.locks.SameFor s'.state.locks h.owner
  size : g.fileSize s'.state = g.fileSize s.state
  shows : 1 < held.stores ∨ s.Sole name f held → g.ShowsSame s.state s'.state

variable {v : Provider} {s s' : OpenFiles} {l : LockHolders} {name other : String} {f g : OpenFile}
  {held : HeldRegion}

/-! ## Locks -/

theorem Mirrors.readers_eq (mirrors : s.Mirrors l) (key : Path.Key) : l.readers key = s.readers key :=
  Keyed.count_of_bind mirrors.holder (·.reads key)

theorem Mirrors.sharers_eq (mirrors : s.Mirrors l) (key : Path.Key) (i : Fin slotCount) :
    l.sharers key i = s.sharers key i :=
  Keyed.count_of_bind mirrors.holder fun h => decide (h.path.key = key) && (h.hold i).shared

theorem find?_close (found : s.find? name = some f) (other : String) :
    (s.step v (.ask name .close)).find? other =
      if other = name then some (f.close s.state).2.1 else s.find? other := by
  rw [step_ask found]
  exact Session.find?_update found _

/-- The holder of a file that is closed lets go of everything. -/
theorem Mirrors.close (mirrors : s.Mirrors l) (found : s.find? name = some f)
    (isOpen : f.store.closed = false) :
    (s.step v (.ask name .close)).Mirrors (l.step (.ask name .release)) := by
  have served := mirrors.serve found .close
  have asked : f.lockRequest? .close = some .release := by
    rw [OpenFile.lockRequest?, isOpen, if_neg Bool.false_ne_true]
  rw [asked] at served
  rw [step_ask found]
  exact served

theorem Mirrors.unlocked (mirrors : s.Mirrors l) (accounted : l.Accounted) (exact_ : l.SlotsExact)
    (found : s.find? name = some f) (isOpen : f.store.closed = false) :
    s.Unlocked f (s.step v (.ask name .close)) := by
  have mirrors' := mirrors.close (v := v) found isOpen
  have accounted' := LockHolders.step_accounted accounted (.ask name .release)
  have exact' := exact_.step accounted (.ask name .release)
  constructor
  case unnamed =>
    intro h held
    have there : l.find? name = some h := by
      rw [mirrors.holder, found, Option.bind_some]
      exact held
    have there' : (l.step (.ask name .release)).find? name = some (h.release l.state).1 := by
      rw [LockHolders.step_ask there, LockHolders.find?_turned there, if_pos rfl]
      rfl
    have unnamed := LockHolders.unnamed_of_idle accounted' exact' there' (h.release_idle l.state)
    rwa [mirrors'.table, (h.release_turns l.state).1.owner] at unnamed
  case sharers =>
    intro key i
    rw [← mirrors'.table, ← mirrors'.sharers_eq]
    exact exact'.counted key i
  case readers =>
    intro key counted
    rw [← mirrors.table, ← mirrors.readers_eq] at counted
    rw [← mirrors'.table, ← mirrors'.readers_eq]
    exact LockHolders.shared_release counted name

/-- Another holder has the same of the locks as before. -/
theorem Mirrors.sameFor (mirrors : s.Mirrors l) (accounted : l.Accounted) (found : s.find? name = some f)
    (isOpen : f.store.closed = false) (different : other ≠ name) (there : s.find? other = some g)
    {h : LockHolder} (has : h ∈ g.client.holder?) :
    s.state.locks.SameFor (s.step v (.ask name .close)).state.locks h.owner := by
  have mirrors' := mirrors.close (v := v) found isOpen
  have other_there : l.find? other = some h := by
    rw [mirrors.holder, there, Option.bind_some]
    exact has
  rw [← mirrors.table, ← mirrors'.table]
  cases client : l.find? name with
  | none =>
    rw [LockHolders.step_ask_of_none client]
    exact ⟨fun _ _ => .rfl, fun _ _ => .rfl⟩
  | some h' =>
    rw [LockHolders.step_ask client]
    refine LockHolder.release_sameFor (fun same => ?_) l.state
    exact different (accounted.distinct other name h h' other_there client same)

/-! ## Regions -/

theorem unmapped_of_held (allOpen : s.state.regions.AllOpen) (lasting : f.Lasting)
    (found : s.find? name = some f) (isOpen : f.store.closed = false)
    (there : s.state.regions.find? f.path.key = some held) :
    s.Unmapped f held (s.step v (.ask name .close)) := by
  obtain ⟨-, -, platform, table⟩ := OpenFile.close_of_held isOpen there
  obtain ⟨files, live⟩ := OpenFile.closeIndex_platform lasting s.state.platform
  obtain ⟨files', live'⟩ := HeldRegion.letGo_platform (allOpen _ held there)
    (f.closeIndex s.state.platform).2
  have state : (s.step v (.ask name .close)).state = (f.close s.state).2.2 := by
    rw [step_ask found]
    rfl
  constructor
  case table => rwa [state]
  case live =>
    rw [state, platform, live', live]
    split <;> rfl
  case files => rw [state, platform, files', files]
  case names =>
    rw [state, platform, files', files]
    split
    · exact .refl _
    · exact (held.region.trimmedFiles_sameFile _).1
  case others =>
    intro id other
    rw [state, platform, files', files]
    split
    · rfl
    · exact (held.region.trimmedFiles_sameFile _).2 id other

/-- Where there is another file open on the path, the store is not the last. -/
theorem one_lt_stores (counts : s.state.regions.Counts s.holders) (found : s.find? name = some f)
    (isOpen : f.store.closed = false) (there : s.state.regions.find? f.path.key = some held)
    (different : other ≠ name) (found' : s.find? other = some g) (isOpen' : g.store.closed = false)
    (same : g.path.key = f.path.key) : 1 < held.stores := by
  rw [counts.counted _ _ there]
  exact Keyed.one_lt_count different found found' (OpenFile.holds_path isOpen)
    (Store.holds_iff.mpr ⟨isOpen', same⟩)

/-- The region of another store stays in the table. -/
theorem Unmapped.region? (unmapped : s.Unmapped f held s')
    (there : s.state.regions.find? f.path.key = some held)
    (shared : g.store.closed = false → g.path.key = f.path.key → 1 < held.stores) :
    g.store.region? s'.state.regions = g.store.region? s.state.regions := by
  rw [Store.region?, Store.region?]
  cases isClosed : g.store.closed with
  | true => rfl
  | false =>
    rw [if_neg Bool.false_ne_true, if_neg Bool.false_ne_true, unmapped.table]
    split
    · rename_i here
      have here : g.path.key = f.path.key := here
      rw [show g.store.path.key = f.path.key from here, there, HeldRegion.less?, if_pos (shared isClosed here)]
      rfl
    · rfl

/-- A region of a file that is not over the file of the region shows the same as before. -/
theorem Unmapped.showsSame {r : Region} (unmapped : s.Unmapped f held s')
    (apart : 1 < held.stores ∨ ∀ m ∈ r.mapped, m.file ≠ held.region.fileId) :
    r.ShowsSame s.state.platform s'.state.platform := by
  intro m mapped
  by_cases last : 1 < held.stores
  · rw [unmapped.files, if_pos last]
  · exact unmapped.others _ (apart.resolve_left last m mapped)

theorem Unmapped.unmoved (unmapped : s.Unmapped f held s') (counts : s.state.regions.Counts s.holders)
    (found : s.find? name = some f) (isOpen : f.store.closed = false)
    (there : s.state.regions.find? f.path.key = some held) (different : other ≠ name)
    (found' : s.find? other = some g) (kept : s'.find? other = some g)
    (locks : ∀ h ∈ g.client.holder?, s.state.locks.SameFor s'.state.locks h.owner) :
    s.Unmoved name f held s' other g := by
  have region : g.store.region? s'.state.regions = g.store.region? s.state.regions :=
    unmapped.region? there (one_lt_stores counts found isOpen there different found')
  refine ⟨kept, locks, ?_, fun apart => .of_regions region ?_ ?_⟩
  · rw [OpenFile.fileSize, OpenFile.fileSize, Store.fileSize, Store.fileSize, region]
  · intro r has
    by_cases last : 1 < held.stores
    · exact unmapped.showsSame (.inl last)
    · have sole := apart.resolve_left last
      rw [Store.region?] at has
      split at has
      · cases has
      · rename_i isOpen'
        obtain ⟨held', there', rfl⟩ := Option.map_eq_some_iff.mp has
        have here : Site.store g.path.key ≠ .store f.path.key := by
          intro same
          exact last (one_lt_stores counts found isOpen there different found'
            (Bool.eq_false_iff.mpr isOpen') (Site.store.inj same))
        exact unmapped.showsSame (.inr (sole (.store g.path.key) held'.region
          (RegionTable.gather_store_of_find? there') here (by simp)))
  · intro r has
    have region : s.openRegions.region? (.index other) = some r :=
      (congrArg (Option.bind · OpenFile.indexRegion?) found').trans has
    exact unmapped.showsSame (apart.imp_right fun sole =>
      sole (.index other) r region (by simp) (by simpa using different))

/-! ## Runs -/

/-- Closing a file lets go of all that it has, whichever calls fail: its locks, the mapping of its index and, with
the last store of a path, that of the region. The failure of the store is reported before that of the index. All
other files are as they were, but a region that is over the file of the store by another path may lose bytes when
the file is trimmed. What is closed stays shut. -/
theorem run_close (v : Provider) (p : Platform) (events : List ProviderEvent) {name : String} {f : OpenFile}
    (found : ((start p).run v events).find? name = some f) (isOpen : f.store.closed = false) :
    let s := (start p).run v events
    let s' := s.step v (.ask name .close)
    ∃ held f', s.state.regions.find? f.path.key = some held ∧ held.stores = s.holders f.path.key ∧
      (f.close s.state).1 = ((held.letGo (f.closeIndex s.state.platform).2).1 >>=
        fun _ => (f.closeIndex s.state.platform).1) ∧
      s'.find? name = some f' ∧ f'.EmptyHanded s'.state ∧ s.Unlocked f s' ∧ s.Unmapped f held s' ∧
      (∀ other g, other ≠ name → s.find? other = some g → s.Unmoved name f held s' other g) ∧
      ∀ later, (∀ e ∈ later, e.replaces name = false) →
        ∃ f'', (s'.run v later).find? name = some f'' ∧ f''.Shut := by
  intro s s'
  have counts : s.state.regions.Counts s.holders := run_counts (start_counts p) events
  obtain ⟨lockEvents, mirrors⟩ := run_lockers (v := v) (start_mirrors p) events
  have accounted := LockHolders.run_accounted lockEvents
  have exact_ := LockHolders.run_slotsExact LockHolders.start_slotsExact LockHolders.start_accounted lockEvents
  obtain ⟨held, there⟩ := Option.ne_none_iff_exists'.mp (find?_ne_none counts found isOpen)
  have unmapped : s.Unmapped f held s' :=
    unmapped_of_held (run_allOpen v p events) (run_lasting v p events name f found) found isOpen there
  have closing : s'.find? name = some (f.close s.state).2.1 := (find?_close found name).trans (if_pos rfl)
  obtain ⟨result, indexGone, -⟩ := OpenFile.close_of_held isOpen there
  have letsGo : f.LetsGo := by
    constructor <;>
    · intro isClosed
      rw [isOpen] at isClosed
      cases isClosed
  have spared : f.store.closed = true → FileRequest.takes .close = false := fun _ => rfl
  refine ⟨held, _, there, counts.counted _ _ there, result, closing,
    (letsGo.serve spared (s := s.state)).emptyHanded (f.closed_close _) _,
    mirrors.unlocked accounted exact_ found isOpen, unmapped, ?_, ?_⟩
  · intro other g different found'
    have kept : s'.find? other = some g := (find?_close found other).trans ((if_neg different).trans found')
    exact unmapped.unmoved counts found isOpen there different found' kept
      fun h has => mirrors.sameFor accounted found isOpen different found' has
  · intro later kept
    obtain ⟨f'', stays, isClosed⟩ := run_closed (v := v) kept closing (f.closed_close _)
    exact ⟨f'', stays, OpenFile.shut_of_closed isClosed⟩

/-- For instance one of two files of a path, the index of which can not be unmapped: everything is let go of all
the same, and the other file may write. -/
theorem close_of_stuck_index :
    let path : Path := .ofNames [[0x78]]
    let v : Provider :=
      { settings := { initialCapacity := 4, locking := .inProcess }, mapper := { detection := .emulated } }
    let p : Platform := { Platform.empty with plan := { unmap := [some Errno.invalid] } }
    let events : List ProviderEvent := [.open "a" (some path) { kind := .mainDb },
      .open "b" (some path) { kind := .mainDb }, .ask "b" (.write 2 #[1]), .ask "a" (.lock .shared),
      .ask "a" (.lockSlots 0 1 .lockExclusive), .ask "a" (.requestSlot 0 8 true)]
    let s := (start p).run v events
    let s' := s.step v (.ask "a" .close)
    ∃ f g held, s.find? "a" = some f ∧ f.store.closed = false ∧ (f.close s.state).1.isOk = false ∧
      s.Unlocked f s' ∧ s.Unmapped f held s' ∧ s.find? "b" = some g ∧
      s.Unmoved "a" f held s' "b" g ∧ (g.lock .exclusive s'.state).1 = .ok () := by
  intro path v p events s s'
  have seen : (s.find? "a").map (fun f => (f.store.closed, (f.close s.state).1.isOk)) =
      some (false, false) := by
    dsimp +zetaDelta only
    cbv
  have free : (s.find? "b").map (fun g => (g.lock .exclusive s'.state).1) = some (.ok ()) := by
    dsimp +zetaDelta only
    cbv
  obtain ⟨f, found, seen⟩ := Option.map_eq_some_iff.mp seen
  obtain ⟨isOpen, failed⟩ := Prod.mk.inj seen
  obtain ⟨g, found', free⟩ := Option.map_eq_some_iff.mp free
  obtain ⟨held, f', -, -, -, -, -, unlocked, unmapped, others, -⟩ := run_close v p events found isOpen
  exact ⟨f, g, held, found, isOpen, failed, unlocked, unmapped, found',
    others "b" g (by decide) found', free⟩

/-- A file that is open by another path as well is trimmed to what was written by this one. -/
theorem trim_reaches_other_path :
    let v : Provider :=
      { settings := { initialCapacity := 4, locking := .inProcess }, mapper := { detection := .emulated } }
    let files := (FileSystem.empty.makeLink (.ofNames [[0x78]]) (.ofNames [[0x6C]])).toOption.getD .empty
    let s := (start { files }).run v [.open "a" (some (.ofNames [[0x78]])) { kind := .mainDb },
      .open "b" (some (.ofNames [[0x6C]])) { kind := .mainDb }, .ask "b" (.write 2 #[1]),
      .ask "a" (.write 0 #[2])]
    let s' := s.step v (.ask "a" .close)
    (s.find? "a").map (·.store.closed) = some false ∧
      (s.find? "b").map (fun g => g.readInto 2 #[7] s.state) = some (.ok (), #[1]) ∧
      (s'.find? "b").map (fun g => g.readInto 2 #[7] s'.state) = some (.ok (), #[0]) := by
  intro v files s s'
  refine ⟨?_, ?_, ?_⟩
  all_goals
    dsimp +zetaDelta only
    cbv

end OpenFiles
end MappedStorage
