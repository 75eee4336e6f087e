import MappedStorage.Proofs.Locking.Holder
import MappedStorage.Proofs.Provider.OpenFile
import MappedStorage.Proofs.System.Vacancy

/-!
What operations leave alone. Whatever an open file is asked for, the regions of other paths stay as they
are, and so do all files but those of its own regions (`OpenFile.serve_leaves`). Names stay too, unless a
file is deleted. Opening a file may change the file that its path leads to (`Provider.openFile_leaves`). A
region that is new is over the file that a path led to (`OpenFile.serve_began`, `Store.open_began`).
-/

namespace MappedStorage

namespace FileSystem

/-- Names stay, but for that of a file which may be made for one of these paths. -/
def MakesAt (fs : FileSystem) (paths : Path → Prop) (fs' : FileSystem) : Prop :=
  fs.SameNames fs' ∨ ∃ path, paths path ∧ (TrackedFile.openOrCreate fs path).2.SameNames fs'

variable {fs fs' fs'' : FileSystem} {paths : Path → Prop} {path : Path}

theorem SameNames.makesAt (same : fs.SameNames fs') : fs.MakesAt paths fs' := .inl same

theorem MakesAt.refl (fs : FileSystem) (paths : Path → Prop) : fs.MakesAt paths fs := .inl (.refl fs)

theorem MakesAt.trans_sameNames (makes : fs.MakesAt paths fs') (same : fs'.SameNames fs'') :
    fs.MakesAt paths fs'' := by
  obtain kept | ⟨path, here, made⟩ := makes
  · exact .inl (kept.trans same)
  · exact .inr ⟨path, here, made.trans same⟩

theorem MakesAt.mono {paths' : Path → Prop} (makes : fs.MakesAt paths fs')
    (more : ∀ path, paths path → paths' path) : fs.MakesAt paths' fs' := by
  obtain kept | ⟨path, here, made⟩ := makes
  · exact .inl kept
  · exact .inr ⟨path, more path here, made⟩

/-- Paths that lead to a file still do. -/
theorem MakesAt.leads (makes : fs.MakesAt paths fs') {h : Handle}
    (there : fs.openExisting path true = .ok h) : fs'.openExisting path true = .ok h := by
  obtain kept | ⟨other, _, made⟩ := makes
  · rw [kept.openExisting, there]
  · rw [made.openExisting]
    exact openExisting_openOrCreate other there

/-- A vacant place stays so if no file is made there. -/
theorem MakesAt.isVacant (makes : fs.MakesAt paths fs') (vacant : fs.IsVacant path)
    (away : ∀ other, paths other → fs.resolve .create other ≠ fs.resolve .create path) :
    fs'.IsVacant path := by
  obtain ⟨holder, name, vacant⟩ := vacant
  refine ⟨holder, name, ?_⟩
  obtain kept | ⟨other, here, made⟩ := makes
  · rw [kept.resolve, vacant]
  · rw [made.resolve]
    exact resolve_openOrCreate_of_vacant vacant (away other here)

theorem SameNames.isVacant (same : fs.SameNames fs') (vacant : fs.IsVacant path) : fs'.IsVacant path :=
  (MakesAt.refl fs fun _ => False).trans_sameNames same |>.isVacant vacant fun _ none => none.elim

end FileSystem

/-- The regions of all paths but some, and all files but some, stay as they are. -/
structure Shared.Leaves (s : Shared) (keys : Path.Key → Prop) (ids : FileId → Prop) (s' : Shared) :
    Prop where
  regions : ∀ key, ¬ keys key → s'.regions.find? key = s.regions.find? key
  spares : ∀ id, ¬ ids id → s.platform.Spares id s'.platform

namespace Shared

variable {s s' s'' : Shared} {keys keys' : Path.Key → Prop} {ids ids' : FileId → Prop}

theorem Leaves.refl (s : Shared) (keys : Path.Key → Prop) (ids : FileId → Prop) :
    s.Leaves keys ids s := ⟨fun _ _ => rfl, fun _ _ => .refl ..⟩

theorem Leaves.trans (first : s.Leaves keys ids s') (second : s'.Leaves keys ids s'') :
    s.Leaves keys ids s'' :=
  ⟨fun key other => (second.regions key other).trans (first.regions key other),
    fun id other => (first.spares id other).trans (second.spares id other)⟩

theorem Leaves.mono (leaves : s.Leaves keys ids s') (more : ∀ key, keys key → keys' key)
    (wider : ∀ id, ids id → ids' id) : s.Leaves keys' ids' s' :=
  ⟨fun key other => leaves.regions key fun here => other (more key here),
    fun id other => leaves.spares id fun here => other (wider id here)⟩

end Shared

/-! ## Stores -/

namespace Store

variable {s s' : Store} {t t' : RegionTable} {p p' : Platform} {result : Except ProviderError Unit}
  {key : Path.Key} {id : FileId}

/-- Only the region of the path of a store changes in a write. -/
theorem write_leaves {offset : Nat} {data : Bytes}
    (sound : ∀ held, t.find? s.path.key = some held → held.region.Sound p)
    (wrote : s.write offset data t p = (result, s', t', p')) :
    (∀ key, key ≠ s.path.key → t'.find? key = t.find? key) ∧ p.files.SameNames p'.files ∧
      ∀ id, (∀ held, t.find? s.path.key = some held → held.region.fileId ≠ id) → p.Spares id p' := by
  have correct := write_correct wrote
  cases region : s.region? t with
  | none =>
    rw [region] at correct
    obtain ⟨_, _, rfl, rfl⟩ := correct
    exact ⟨fun _ _ => rfl, .refl _, fun _ _ => .refl ..⟩
  | some r =>
    rw [region] at correct
    obtain ⟨_, r', q, writing, rfl, _, flushing⟩ := correct
    obtain ⟨_, n, found⟩ := region?_eq_some_iff.mp region
    have advanced := Region.write_advanced (sound _ found) writing
    have settled := flushing.settled advanced.sound.shows
    have only := advanced.onlyFile.trans (advanced.same.fileId_eq ▸ settled.onlyFile)
    refine ⟨?_, only.names, fun id other => only.spares (other _ found).symm⟩
    intro key different
    exact (RegionTable.differs_setRegion found r').elsewhere different

theorem sync_leaves (shows : ∀ held, t.find? s.path.key = some held →
      ∀ m ∈ held.region.mapped, m.file = held.region.fileId)
    (synced : s.sync t p = (result, s', p')) : p.files.SameNames p'.files ∧
      ∀ id, (∀ held, t.find? s.path.key = some held → held.region.fileId ≠ id) → p.Spares id p' := by
  have correct := sync_correct synced
  cases region : s.region? t with
  | none =>
    rw [region] at correct
    obtain ⟨_, _, rfl⟩ := correct
    exact ⟨.refl _, fun _ _ => .refl ..⟩
  | some r =>
    rw [region] at correct
    obtain ⟨_, n, found⟩ := region?_eq_some_iff.mp region
    have only := (correct.settled (shows _ found)).onlyFile
    exact ⟨only.names, fun id other => only.spares (other _ found).symm⟩

theorem close_leaves (shows : ∀ held, t.find? s.path.key = some held →
      ∀ m ∈ held.region.mapped, m.file = held.region.fileId)
    (closed : s.close t p = (result, s', t', p')) :
    (∀ key, key ≠ s.path.key → t'.find? key = t.find? key) ∧ p.files.SameNames p'.files ∧
      ∀ id, (∀ held, t.find? s.path.key = some held → held.region.fileId ≠ id) → p.Spares id p' := by
  obtain ⟨_, rfl, rfl⟩ | ⟨held, _, found, ⟨_, rfl, rfl⟩ | ⟨_, rfl, rfl⟩⟩ := (close_correct closed).2
  · exact ⟨fun _ _ => rfl, .refl _, fun _ _ => .refl ..⟩
  · refine ⟨?_, .refl _, fun _ _ => .refl ..⟩
    intro key different
    exact (t.differs_insert s.path.key _).elsewhere different
  · have only := (Region.close_ended (p := p) (shows held found)).onlyFile
    refine ⟨?_, only.names, fun id other => only.spares (other held found).symm⟩
    intro key different
    exact (t.differs_erase s.path.key).elsewhere different

/-- Opening a store touches no file but the one that its path leads to, and only if there is no region
of the path yet. -/
theorem open_leaves {path : Path} {role : Role} {setup : RegionSetup} {made : Except ProviderError Store}
    (opened : Store.open path role setup t p = (made, t', p')) :
    (∀ key, key ≠ path.key → t'.find? key = t.find? key) ∧ p.files.MakesAt (· = path) p'.files ∧
      ∀ id, (t.find? path.key = none → p.files.target? path ≠ some id) → p.Spares id p' := by
  have correct := open_correct opened
  cases made with
  | error e =>
    obtain ⟨absent, rfl, e', opening⟩ := correct
    have opening := (Region.open_correct opening).1
    exact ⟨fun _ _ => rfl, .inr ⟨path, rfl, opening.names⟩, fun id other => opening.others id (other absent)⟩
  | ok s =>
    obtain ⟨held, found, rfl, rfl, rfl⟩ | ⟨absent, r, opening, rfl, rfl⟩ := correct
    · refine ⟨?_, .refl .., fun _ _ => .refl ..⟩
      intro key different
      exact (t.differs_insert path.key _).elsewhere different
    · have opening := (Region.open_correct opening).1
      refine ⟨?_, .inr ⟨path, rfl, opening.names⟩, fun id other => opening.others id (other absent)⟩
      intro key different
      exact (t.differs_insert path.key _).elsewhere different

/-- The region of a store that is opened is the one that the path had, or over the file that it leads to. -/
theorem open_began {path : Path} {role : Role} {setup : RegionSetup} {made : Except ProviderError Store}
    (opened : Store.open path role setup t p = (made, t', p')) {held' : HeldRegion}
    (there : t'.find? path.key = some held') :
    (∃ held, t.find? path.key = some held ∧ held'.region = held.region) ∨
      t.find? path.key = none ∧ p.files.target? path = some held'.region.fileId := by
  have correct := open_correct opened
  cases made with
  | error e =>
    obtain ⟨_, rfl, _⟩ := correct
    exact .inl ⟨held', there, rfl⟩
  | ok s =>
    obtain ⟨held, found, rfl, rfl, rfl⟩ | ⟨absent, r, opening, rfl, rfl⟩ := correct
    · rw [(t.differs_insert path.key _).here] at there
      cases there
      exact .inl ⟨held, found, rfl⟩
    · rw [(t.differs_insert path.key _).here] at there
      cases there
      exact .inr ⟨absent, (Region.open_correct opening).2.target⟩

end Store

/-! ## Open files -/

namespace OpenFile

/-- A file has this file for its store. -/
def HasStore (f : OpenFile) (s : Shared) (id : FileId) : Prop :=
  ∃ held, s.regions.find? f.path.key = some held ∧ held.region.fileId = id

/-- A file has this file for its shared index. -/
def HasIndex (f : OpenFile) (id : FileId) : Prop := ∃ r, f.indexRegion? = some r ∧ r.fileId = id

/-- Where the index of a file is not mapped, its path leads to this file. -/
def MayMap (f : OpenFile) (s : Shared) (id : FileId) : Prop :=
  ∃ x, f.index = some x ∧ x.region? = none ∧ s.platform.files.target? x.path = some id

/-- The paths for which a request to a file may make one. -/
def MayMake (f : OpenFile) (path : Path) : FileRequest → Prop
  | .requestSlot .. => ∃ x, f.index = some x ∧ x.region? = none ∧ x.path = path
  | _ => False

/-- The files that a request to a file may change. -/
def Reaches (f : OpenFile) (s : Shared) (id : FileId) : FileRequest → Prop
  | .requestSlot .. => f.HasIndex id ∨ f.MayMap s id
  | .fillSlot .. | .storeWord .. | .barrier | .unmapIndex _ => f.HasIndex id
  | .write .. | .sync _ => f.HasStore s id
  | .close => f.HasStore s id ∨ f.HasIndex id
  | .truncate _ | .lock _ | .unlock _ | .lockSlots .. => False

/-- A request may change the region of a path. -/
def MayMove (f : OpenFile) (key : Path.Key) : FileRequest → Prop
  | .write .. | .close => key = f.path.key
  | _ => False

/-- The regions that a file has are sound. -/
structure Fits (f : OpenFile) (s : Shared) : Prop where
  store : ∀ held, s.regions.find? f.path.key = some held → held.region.Sound s.platform
  index : ∀ r, f.indexRegion? = some r → r.Sound s.platform

variable {f f' : OpenFile} {s s' : Shared} {index : String → Option Region} {name : String}

theorem fits_of_gather (fits : (s.gather index).Fits) (here : index name = f.indexRegion?) :
    f.Fits s :=
  ⟨fun held found => fits.sound (.store f.path.key) held.region (RegionTable.gather_store_of_find? found),
    fun r mapped => fits.sound (.index name) r (here.trans mapped)⟩

/-- A file of which no index is mapped. -/
theorem fits_of_none (fits : (s.gather index).Fits) (unmapped : f.indexRegion? = none) : f.Fits s := by
  refine ⟨?_, ?_⟩
  · intro held found
    exact fits.sound (.store f.path.key) held.region (RegionTable.gather_store_of_find? found)
  · intro r mapped
    rw [unmapped] at mapped
    cases mapped

theorem write_leaves (fits : f.Fits s) (offset : Nat) (data : Bytes) :
    s.Leaves (· = f.path.key) (f.HasStore s) (f.write offset data s).2.2 ∧
      s.platform.files.SameNames (f.write offset data s).2.2.platform.files := by
  rcases writing : f.store.write offset data s.regions s.platform with ⟨result, store, regions, platform⟩
  obtain ⟨others, names, spares⟩ := Store.write_leaves fits.store writing
  rw [write_eq writing]
  refine ⟨⟨others, fun id away => spares id ?_⟩, names⟩
  intro held found here
  exact away ⟨held, found, here⟩

theorem sync_leaves (fits : f.Fits s) (flags : SyncFlags) :
    s.Leaves (fun _ => False) (f.HasStore s) (f.sync flags s).2.2 ∧
      s.platform.files.SameNames (f.sync flags s).2.2.platform.files := by
  rcases syncing : f.store.sync s.regions s.platform with ⟨result, store, platform⟩
  obtain ⟨names, spares⟩ := Store.sync_leaves (fun held found => (fits.store held found).shows) syncing
  rw [sync_eq syncing]
  refine ⟨⟨fun _ _ => rfl, fun id away => spares id ?_⟩, names⟩
  intro held found here
  exact away ⟨held, found, here⟩

theorem closeStore_leaves (shows : ∀ held, s.regions.find? f.path.key = some held →
      ∀ m ∈ held.region.mapped, m.file = held.region.fileId) :
    s.Leaves (· = f.path.key) (f.HasStore s) (f.closeStore s).2.2 ∧
      s.platform.files.SameNames (f.closeStore s).2.2.platform.files := by
  rcases closing : f.store.close s.regions s.platform with ⟨result, store, regions, platform⟩
  obtain ⟨others, names, spares⟩ := Store.close_leaves shows closing
  rw [closeStore_eq closing]
  refine ⟨⟨others, fun id away => spares id ?_⟩, names⟩
  intro held found here
  exact away ⟨held, found, here⟩

/-- What is done to the file of an index alone. -/
theorem leaves_of_onlyFile {r : Region} {p : Platform} (mapped : f.indexRegion? = some r)
    (only : s.platform.OnlyFile r.fileId p) :
    s.Leaves (fun _ => False) f.HasIndex { s with platform := p } ∧
      s.platform.files.SameNames p.files :=
  ⟨⟨fun _ _ => rfl, fun _ away => only.spares fun here => away ⟨r, mapped, here.symm⟩⟩, only.names⟩

theorem fillSlot_leaves (fits : f.Fits s) (slot : Slot) (byte : UInt8) :
    s.Leaves (fun _ => False) f.HasIndex (f.fillSlot slot byte s) ∧
      s.platform.files.SameNames (f.fillSlot slot byte s).platform.files := by
  rw [fillSlot]
  split
  · rename_i n platform filled
    obtain ⟨x, has, filled⟩ := Option.bind_eq_some_iff.mp filled
    cases region : x.region? with
    | none =>
      simp only [SharedIndex.fillSlot?, region] at filled
      cases filled
    | some r =>
      have mapped : f.indexRegion? = some r := by rw [indexRegion?, has, Option.bind_some, region]
      exact leaves_of_onlyFile mapped
        (SharedIndex.fillSlot_onlyFile region (fits.index r mapped).shows filled)
  · exact ⟨.refl .., .refl _⟩

theorem storeWord_leaves (fits : f.Fits s) (slot : Slot) (i word : Nat) :
    s.Leaves (fun _ => False) f.HasIndex (f.storeWord slot i word s) ∧
      s.platform.files.SameNames (f.storeWord slot i word s).platform.files := by
  rw [storeWord]
  split
  · rename_i words viewed
    split
    · obtain ⟨x, has, viewed⟩ := Option.bind_eq_some_iff.mp viewed
      obtain ⟨r, region, seen⟩ := Option.bind_eq_some_iff.mp viewed
      have mapped : f.indexRegion? = some r := by rw [indexRegion?, has, Option.bind_some, region]
      have file := SharedIndex.file_of_wordsOf? region (fits.index r mapped).shows viewed
      exact leaves_of_onlyFile mapped (file ▸ SharedIndex.wordStore_onlyFile words i word s.platform)
    · exact ⟨.refl .., .refl _⟩
  · exact ⟨.refl .., .refl _⟩

theorem barrier_leaves (fits : f.Fits s) :
    s.Leaves (fun _ => False) f.HasIndex (f.barrier s) ∧
      s.platform.files.SameNames (f.barrier s).platform.files := by
  rw [barrier]
  split
  · exact ⟨.refl .., .refl _⟩
  · rename_i x has
    cases region : x.region? with
    | none =>
      simp only [SharedIndex.barrier, region]
      exact ⟨.refl .., .refl _⟩
    | some r =>
      have mapped : f.indexRegion? = some r := by rw [indexRegion?, has, Option.bind_some, region]
      exact leaves_of_onlyFile mapped
        (SharedIndex.barrier_onlyFile region (fits.index r mapped).shows s.platform)

/-- The name of an index may go when it is unmapped. -/
theorem unmapIndex_leaves (shows : ∀ r, f.indexRegion? = some r → ∀ m ∈ r.mapped, m.file = r.fileId)
    (delete : Bool) : s.Leaves (fun _ => False) f.HasIndex (f.unmapIndex delete s).2.2 ∧
      (delete = false → s.platform.files.SameNames (f.unmapIndex delete s).2.2.platform.files) := by
  rw [unmapIndex]
  split
  · exact ⟨.refl .., fun _ => .refl _⟩
  · rename_i x has
    dsimp only
    cases region : x.region? with
    | none =>
      rw [SharedIndex.unmap_of_none region]
      exact ⟨.refl .., fun _ => .refl _⟩
    | some r =>
      have mapped : f.indexRegion? = some r := by rw [indexRegion?, has, Option.bind_some, region]
      have shows := shows r mapped
      refine ⟨⟨fun _ _ => rfl, ?_⟩, ?_⟩
      · intro id away
        exact SharedIndex.unmap_spares region shows delete fun here => away ⟨r, mapped, here.symm⟩
      · rintro rfl
        exact SharedIndex.unmap_names region shows

theorem requestSlot_leaves (fits : f.Fits s) (i slotSize : Nat) (extend : Bool) :
    s.Leaves (fun _ => False) (fun id => f.HasIndex id ∨ f.MayMap s id)
        (f.requestSlot i slotSize extend s).2.2 ∧
      s.platform.files.MakesAt (f.MayMake · (.requestSlot i slotSize extend))
        (f.requestSlot i slotSize extend s).2.2.platform.files := by
  have quiet : s.Leaves (fun _ => False) (fun id => f.HasIndex id ∨ f.MayMap s id) s ∧
      s.platform.files.MakesAt (f.MayMake · (.requestSlot i slotSize extend)) s.platform.files :=
    ⟨.refl .., .refl ..⟩
  rw [requestSlot]
  cases has : f.index with
  | none => exact quiet
  | some x =>
    dsimp only
    rcases request : x.requestSlot i slotSize extend s.platform with ⟨slot, x', p'⟩
    have region : f.indexRegion? = x.region? := by rw [indexRegion?, has, Option.bind_some]
    have may (absent : x.region? = none) {id : FileId} (away : ¬ (f.HasIndex id ∨ f.MayMap s id)) :
        s.platform.files.target? x.path ≠ some id := fun target => away (.inr ⟨x, has, absent, target⟩)
    cases SharedIndex.requestSlot_correct request with
    | idle => exact quiet
    | failed absent opening =>
      have opening := (Region.open_correct opening).1
      exact ⟨⟨fun _ _ => rfl, fun id away => opening.others id (may absent away)⟩,
        .inr ⟨x.path, ⟨x, has, absent, rfl⟩, opening.names⟩⟩
    | @mapped r r' _ _ found same later advanced =>
      have mapped := region.trans found
      have only := (advanced (fits.index r mapped)).onlyFile
      refine ⟨⟨fun _ _ => rfl, fun id away => only.spares ?_⟩, only.names.makesAt⟩
      intro here
      exact away (.inl ⟨r, mapped, here.symm⟩)
    | @opened setup r r' _ p₁ _ absent trims opening same later advanced =>
      obtain ⟨opening, opened⟩ := Region.open_correct opening
      have only := (advanced opened.sound).onlyFile
      refine ⟨⟨fun _ _ => rfl, ?_⟩, .inr ⟨x.path, ⟨x, has, absent, rfl⟩, opening.names.trans only.names⟩⟩
      intro id away
      have elsewhere := may absent away
      refine (opening.others id elsewhere).trans (only.spares ?_)
      rintro rfl
      exact elsewhere opened.target

theorem close_leaves (fits : f.Fits s) :
    s.Leaves (· = f.path.key) (fun id => f.HasStore s id ∨ f.HasIndex id) (f.close s).2.2 ∧
      s.platform.files.SameNames (f.close s).2.2.platform.files := by
  cases isClosed : f.store.closed with
  | true =>
    rw [close_of_closed isClosed]
    exact ⟨.refl .., .refl _⟩
  | false =>
    rw [close_eq isClosed]
    obtain ⟨store, regions⟩ := (f.releaseLocks s).1.unmapIndex_store false (f.releaseLocks s).2
    obtain ⟨unmapped, names⟩ := (f.releaseLocks s).1.unmapIndex_leaves
      (s := (f.releaseLocks s).2) (fun r mapped => (fits.index r mapped).shows) false
    rcases unmapping : (f.releaseLocks s).1.unmapIndex false (f.releaseLocks s).2 with ⟨_, f₂, s₂⟩
    rw [unmapping] at store regions unmapped names
    have path : f₂.path = f.path := congrArg Store.path store
    have regions : s₂.regions = s.regions := regions
    obtain ⟨left, names'⟩ := f₂.closeStore_leaves (s := s₂) fun held found => by
      rw [regions, path] at found
      exact (fits.store held found).shows
    have first : s.Leaves (· = f.path.key) (fun id => f.HasStore s id ∨ f.HasIndex id) s₂ :=
      ⟨fun key _ => unmapped.regions key id, fun id away => unmapped.spares id fun here =>
        away (.inr here)⟩
    refine ⟨first.trans (left.mono ?_ ?_), (names rfl).trans names'⟩
    · rintro key rfl
      rw [path]
    · rintro id ⟨held, found, here⟩
      rw [regions, path] at found
      exact .inl ⟨held, found, here⟩

/-- What a request leaves alone. Names stay, but for that of the file of the index, which may be made or
deleted. -/
theorem serve_leaves (fits : f.Fits s) (request : FileRequest) :
    s.Leaves (f.MayMove · request) (f.Reaches s · request) (f.serve request s).2 ∧
      (request ≠ .unmapIndex true →
        s.platform.files.MakesAt (f.MayMake · request) (f.serve request s).2.platform.files) := by
  have idle (keys : Path.Key → Prop) (ids : FileId → Prop) (locks : LockTable) :
      s.Leaves keys ids { s with locks } := ⟨fun _ _ => rfl, fun _ _ => .refl ..⟩
  cases request with
  | write offset data =>
    obtain ⟨leaves, names⟩ := write_leaves fits offset data
    exact ⟨leaves, fun _ => names.makesAt⟩
  | truncate size => exact ⟨.refl .., fun _ => .refl ..⟩
  | sync flags =>
    obtain ⟨leaves, names⟩ := sync_leaves fits flags
    exact ⟨leaves, fun _ => names.makesAt⟩
  | lock level => exact ⟨idle .., fun _ => .refl ..⟩
  | unlock level => exact ⟨idle .., fun _ => .refl ..⟩
  | lockSlots offset n op => exact ⟨idle .., fun _ => .refl ..⟩
  | requestSlot i slotSize extend =>
    obtain ⟨leaves, makes⟩ := requestSlot_leaves fits i slotSize extend
    exact ⟨leaves, fun _ => makes⟩
  | fillSlot slot byte =>
    obtain ⟨leaves, names⟩ := fillSlot_leaves fits slot byte
    exact ⟨leaves, fun _ => names.makesAt⟩
  | storeWord slot i word =>
    obtain ⟨leaves, names⟩ := storeWord_leaves fits slot i word
    exact ⟨leaves, fun _ => names.makesAt⟩
  | barrier =>
    obtain ⟨leaves, names⟩ := barrier_leaves fits
    exact ⟨leaves, fun _ => names.makesAt⟩
  | unmapIndex delete =>
    obtain ⟨leaves, names⟩ := unmapIndex_leaves (s := s) (fun r mapped => (fits.index r mapped).shows)
      delete
    refine ⟨leaves, fun kept => (names ?_).makesAt⟩
    cases delete with
    | false => rfl
    | true => exact absurd rfl kept
  | close =>
    obtain ⟨leaves, names⟩ := close_leaves fits
    exact ⟨leaves, fun _ => names.makesAt⟩

/-- The index of a file that is closed is the one that it had, or unmapped. -/
theorem indexRegion?_of_close {r : Region} (mapped : (f.close s).2.1.indexRegion? = some r) :
    f.indexRegion? = some r := by
  cases isClosed : f.store.closed with
  | true =>
    rw [close_of_closed isClosed] at mapped
    exact mapped
  | false =>
    rw [close_eq isClosed] at mapped
    have gone := ((f.releaseLocks s).1.unmapIndex_goes false (f.releaseLocks s).2).2
    exact absurd (gone.symm.trans mapped) nofun

theorem drop_leaves (fits : f.Fits s) :
    s.Leaves (· = f.path.key) (fun id => f.HasStore s id ∨ f.HasIndex id) (f.drop s) ∧
      s.platform.files.SameNames (f.drop s).platform.files := by
  obtain ⟨closed, names⟩ := close_leaves fits
  have before {r : Region} := indexRegion?_of_close (f := f) (s := s) (r := r)
  rcases closing : f.close s with ⟨result, f₁, s₁⟩
  rw [closing] at closed names before
  obtain ⟨unmapped, names'⟩ := (f₁.releaseLocks s₁).1.unmapIndex_leaves (s := (f₁.releaseLocks s₁).2)
    (fun r mapped => (fits.index r (before mapped)).shows) false
  rw [drop_eq closing]
  refine ⟨closed.trans ?_, names.trans (names' rfl)⟩
  refine ⟨fun key _ => unmapped.regions key id, fun id away => unmapped.spares id ?_⟩
  rintro ⟨r, mapped, here⟩
  exact away (.inr ⟨r, before mapped, here⟩)

/-- The region of an index is over the file that it was over, or the one that the path of the index leads
to. -/
theorem serve_began (fits : f.Fits s) {request : FileRequest} {r' : Region}
    (mapped : (f.serve request s).1.indexRegion? = some r') : f.HasIndex r'.fileId ∨
      f.MayMap s r'.fileId ∧ ∃ i slotSize extend, request = .requestSlot i slotSize extend := by
  cases request with
  | requestSlot i slotSize extend =>
    simp only [serve, requestSlot] at mapped
    cases has : f.index with
    | none =>
      rw [has] at mapped
      exact .inl ⟨r', mapped, rfl⟩
    | some x =>
      rw [has] at mapped
      dsimp only at mapped
      rcases request : x.requestSlot i slotSize extend s.platform with ⟨slot, x', p'⟩
      rw [request, indexRegion?, Option.bind_some] at mapped
      have region : f.indexRegion? = x.region? := by rw [indexRegion?, has, Option.bind_some]
      cases SharedIndex.requestSlot_correct request with
      | idle => exact .inl ⟨r', region.trans mapped, rfl⟩
      | failed absent opening => exact .inl ⟨r', region.trans mapped, rfl⟩
      | mapped found same later advanced =>
        rw [later] at mapped
        cases mapped
        have there := region.trans found
        exact .inl ⟨_, there, (advanced (fits.index _ there)).same.fileId_eq.symm⟩
      | opened absent trims opening same later advanced =>
        rw [later] at mapped
        cases mapped
        have opened := (Region.open_correct opening).2
        refine .inr ⟨⟨x, has, absent, ?_⟩, i, slotSize, extend, rfl⟩
        rw [(advanced opened.sound).same.fileId_eq]
        exact opened.target
  | unmapIndex delete =>
    have gone := (f.unmapIndex_goes delete s).2
    exact absurd (mapped.symm.trans gone) (Option.some_ne_none _)
  | close => exact .inl ⟨r', indexRegion?_of_close mapped, rfl⟩
  | _ => exact .inl ⟨r', mapped, rfl⟩

/-! ## Names and locks -/

/-- A file remains the file of its paths, and asks for no locks of other paths. -/
structure Stays (f : OpenFile) (s : Shared) (f' : OpenFile) (s' : Shared) : Prop where
  path : f'.path = f.path
  index : f'.index.map (·.path) = f.index.map (·.path)
  locks : f.client.Stays s.locks f'.client s'.locks

variable {f f' f'' : OpenFile} {s s' s'' : Shared}

theorem Stays.refl (f : OpenFile) (s : Shared) : f.Stays s f s := ⟨rfl, rfl, .refl ..⟩

theorem Stays.trans (first : f.Stays s f' s') (second : f'.Stays s' f'' s'') : f.Stays s f'' s'' :=
  ⟨second.path.trans first.path, second.index.trans first.index, first.locks.trans second.locks⟩

theorem releaseLocks_stays (f : OpenFile) (s : Shared) :
    f.Stays s (f.releaseLocks s).1 (f.releaseLocks s).2 := ⟨rfl, rfl, f.client.release_stays s.locks⟩

theorem unmapIndex_stays (f : OpenFile) (delete : Bool) (s : Shared) :
    f.Stays s (f.unmapIndex delete s).2.1 (f.unmapIndex delete s).2.2 := by
  rw [unmapIndex]
  cases has : f.index with
  | none => exact .refl ..
  | some x =>
    refine ⟨rfl, ?_, .refl ..⟩
    rw [has]
    dsimp only
    cases region : x.region? with
    | none => rw [SharedIndex.unmap_of_none region]
    | some r =>
      rw [SharedIndex.unmap_region region]
      rfl

theorem closeStore_stays (f : OpenFile) (s : Shared) :
    f.Stays s (f.closeStore s).2.1 (f.closeStore s).2.2 := by
  rcases closing : f.store.close s.regions s.platform with ⟨result, store, regions, platform⟩
  obtain ⟨same, _⟩ := Store.close_correct closing
  rw [closeStore_eq closing, same]
  exact ⟨rfl, rfl, .refl ..⟩

theorem close_stays (f : OpenFile) (s : Shared) : f.Stays s (f.close s).2.1 (f.close s).2.2 := by
  cases isClosed : f.store.closed with
  | true =>
    rw [close_of_closed isClosed]
    exact .refl ..
  | false =>
    rw [close_eq isClosed]
    exact (f.releaseLocks_stays s).trans ((unmapIndex_stays ..).trans (closeStore_stays ..))

theorem drop_stays (f : OpenFile) (s : Shared) : ∃ f', f.Stays s f' (f.drop s) := by
  have closed := f.close_stays s
  rcases closing : f.close s with ⟨_, f₁, s₁⟩
  rw [closing] at closed
  rw [drop_eq closing]
  exact ⟨_, closed.trans ((f₁.releaseLocks_stays s₁).trans (unmapIndex_stays ..))⟩

theorem requestSlot_stays (f : OpenFile) (i slotSize : Nat) (extend : Bool) (s : Shared) :
    f.Stays s (f.requestSlot i slotSize extend s).2.1 (f.requestSlot i slotSize extend s).2.2 := by
  rw [requestSlot]
  cases has : f.index with
  | none => exact .refl ..
  | some x =>
    rcases request : x.requestSlot i slotSize extend s.platform with ⟨slot, x', p'⟩
    refine ⟨rfl, ?_, .refl ..⟩
    rw [has]
    cases SharedIndex.requestSlot_correct request with
    | idle => simp only [request]
    | failed absent opening => simp only [request]
    | mapped found same later advanced => simp only [request, Option.map_some, same.path]
    | opened absent trims opening same later advanced =>
      simp only [request, Option.map_some, same.path]

theorem serve_stays (f : OpenFile) (request : FileRequest) (s : Shared) :
    f.Stays s (f.serve request s).1 (f.serve request s).2 := by
  cases request with
  | write offset data =>
    rcases writing : f.store.write offset data s.regions s.platform with ⟨result, store, regions, p⟩
    rw [serve, write_eq writing]
    exact ⟨(Store.write_same writing).path, rfl, .refl ..⟩
  | truncate size => exact .refl ..
  | sync flags =>
    rcases syncing : f.store.sync s.regions s.platform with ⟨result, store, p⟩
    rw [serve, sync_eq syncing]
    exact ⟨(Store.sync_same syncing).path, rfl, .refl ..⟩
  | lock level => exact ⟨rfl, rfl, f.client.lock_stays level s.locks⟩
  | unlock level => exact ⟨rfl, rfl, f.client.unlock_stays level s.locks⟩
  | lockSlots offset n op => exact ⟨rfl, rfl, f.client.lockSlots_stays offset n op s.locks⟩
  | requestSlot i slotSize extend => exact f.requestSlot_stays i slotSize extend s
  | fillSlot slot byte =>
    refine ⟨rfl, rfl, ?_⟩
    rw [serve, fillSlot]
    split <;> exact .refl ..
  | storeWord slot i word =>
    refine ⟨rfl, rfl, ?_⟩
    rw [serve, storeWord]
    split
    · split <;> exact .refl ..
    · exact .refl ..
  | barrier =>
    refine ⟨rfl, rfl, ?_⟩
    rw [serve, barrier]
    split <;> exact .refl ..
  | unmapIndex delete => exact f.unmapIndex_stays delete s
  | close => exact f.close_stays s

end OpenFile

/-! ## Files by path -/

namespace Provider

variable {v : Provider} {path : Option Path} {flags : OpenFlags} {s s' : Shared}
  {result : Except ProviderError OpenFile}

/-- Opening a file may change the region of a path. -/
def MayMove (v : Provider) (path : Option Path) (flags : OpenFlags) (key : Path.Key) : Prop :=
  ∃ named, path = some named ∧ key = (v.resolve named flags.kind).key

/-- Opening a file leads to this one, and the path has no region yet. -/
def Reaches (v : Provider) (path : Option Path) (flags : OpenFlags) (s : Shared) (id : FileId) : Prop :=
  ∃ named, path = some named ∧ s.regions.find? (v.resolve named flags.kind).key = none ∧
    s.platform.files.target? (v.resolve named flags.kind) = some id

/-- The path for which opening a file may make one. -/
def MayMake (v : Provider) (path : Option Path) (flags : OpenFlags) (fs : FileSystem) (real : Path) :
    Prop :=
  ∃ named, path = some named ∧ real = v.resolve named flags.kind ∧
    (flags.create = true ∨ fs.isPresent real = true)

/-- What opening a file leaves alone. -/
theorem openFile_leaves (opened : v.openFile path flags s = (result, s')) :
    s.Leaves (v.MayMove path flags) (v.Reaches path flags s) s' ∧
      s.platform.files.MakesAt (v.MayMake path flags s.platform.files) s'.platform.files ∧
        ∀ key, s'.locks.locks key = s.locks.locks key := by
  cases openFile_opened opened with
  | refused e => exact ⟨.refl .., .refl .., fun _ => rfl⟩
  | @failed named _ _ _ _ _ leads opening _ present =>
    obtain ⟨regions, makes, spares⟩ := Store.open_leaves opening
    refine ⟨⟨fun key away => regions key ?_, fun id away => spares id ?_⟩,
      makes.mono fun real here => ⟨named, leads, here, here ▸ present⟩, fun _ => rfl⟩
    · rintro rfl
      exact away ⟨_, leads, rfl⟩
    · intro absent target
      exact away ⟨_, leads, absent, target⟩
  | @opened named _ _ _ _ _ _ _ leads opening made _ present =>
    have made := assemble_correct made
    obtain ⟨regions, makes, spares⟩ := Store.open_leaves opening
    refine ⟨⟨fun key away => ?_, fun id away => ?_⟩, ?_, fun key => ?_⟩
    · rw [made.regions]
      refine regions key ?_
      rintro rfl
      exact away ⟨_, leads, rfl⟩
    · rw [made.platform]
      refine spares id ?_
      intro absent target
      exact away ⟨_, leads, absent, target⟩
    · rw [made.platform]
      exact makes.mono fun real here => ⟨named, leads, here, here ▸ present⟩
    · obtain ⟨_, locks⟩ | ⟨_, locks⟩ := made.locks
      · rw [locks]
      · rw [locks]
        rfl

/-- A file that is opened is the file of the path that was asked for. -/
theorem openFile_file {f : OpenFile} (opened : v.openFile path flags s = (.ok f, s')) :
    ∃ named, path = some named ∧ f.path = v.resolve named flags.kind ∧
      (∀ x, f.index = some x → flags.kind = .mainDb ∧
        x.path = Placement.indexPath named v.settings.directory) ∧
      ∀ path, f.client.path? = some path → path = v.resolve named flags.kind := by
  cases openFile_opened opened with
  | opened leads opening made =>
    have made := assemble_correct made
    refine ⟨_, leads, ?_, ?_, ?_⟩
    · rw [OpenFile.path, made.store]
      obtain ⟨_, _, rfl, _, _⟩ | ⟨_, _, _, rfl, _⟩ := Store.open_correct opening <;> rfl
    · intro x has
      rw [made.index] at has
      split at has
      · rename_i database
        cases has
        exact ⟨database, rfl⟩
      · cases has
    · intro path here
      obtain ⟨client, _⟩ | ⟨client, _⟩ := made.locks
      · rw [client] at here
        cases here
      · rw [client] at here
        cases here
        rfl

/-- A region that is there once a file was opened was there before, or is over the file that was led to. -/
theorem openFile_began (opened : v.openFile path flags s = (result, s')) {key : Path.Key}
    {held' : HeldRegion} (there : s'.regions.find? key = some held') :
    (∃ held, s.regions.find? key = some held ∧ held'.region = held.region) ∨
      v.MayMove path flags key ∧ v.Reaches path flags s held'.region.fileId := by
  have leaves := (openFile_leaves opened).1
  by_cases moved : v.MayMove path flags key
  · obtain ⟨named, leads, rfl⟩ := moved
    have began {role : Role} {setup : RegionSetup} {made : Except ProviderError Store} {t : RegionTable}
        {p : Platform} (opening : Store.open (v.resolve named flags.kind) role setup s.regions
          s.platform = (made, t, p)) (same : s'.regions = t) :
        (∃ held, s.regions.find? (v.resolve named flags.kind).key = some held ∧
          held'.region = held.region) ∨ v.MayMove path flags (v.resolve named flags.kind).key ∧
            v.Reaches path flags s held'.region.fileId := by
      obtain before | ⟨absent, target⟩ := Store.open_began opening (same ▸ there)
      · exact .inl before
      · exact .inr ⟨⟨named, leads, rfl⟩, named, leads, absent, target⟩
    cases openFile_opened opened with
    | refused e => exact .inl ⟨held', there, rfl⟩
    | failed leads' opening =>
      cases leads.symm.trans leads'
      exact began opening rfl
    | opened leads' opening made =>
      cases leads.symm.trans leads'
      exact began opening (assemble_correct made).regions
  · rw [leaves.regions key moved] at there
    exact .inl ⟨held', there, rfl⟩

theorem delete_leaves (v : Provider) (path : Path) (syncing : Bool) (s : Shared) :
    s.Leaves (fun _ => False) (fun _ => False) (v.delete path syncing s).2 ∧
      (v.delete path syncing s).2.locks = s.locks := by
  rw [delete]
  dsimp only
  split
  · split
    · exact ⟨.refl .., rfl⟩
    · exact ⟨.refl .., rfl⟩
  · rename_i unlinked
    exact ⟨⟨fun _ _ => rfl, fun id _ => ⟨FileSystem.file_unlink unlinked id, .refl _⟩⟩, rfl⟩

end Provider
end MappedStorage
