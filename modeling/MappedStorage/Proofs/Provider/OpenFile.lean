import Mathlib.Logic.Function.Basic
import MappedStorage.Proofs.Provider.OpenRegions
import MappedStorage.Proofs.Provider.Run
import MappedStorage.Proofs.Store.Basic
import MappedStorage.Proofs.Store.SharedIndex

/-!
What open files do to the regions of all files. Those of stores are in the table that the files share,
those of indexes are with each file (`RegionTable.gather`). Whatever a file is asked for leaves every region
within its file, and none smaller, also where it opens the region of its index (`OpenFile.serve_steps`);
so does opening a file, which may open the region of its store (`Provider.openFile_steps`).
-/

namespace MappedStorage

open OpenRegions

/-- The regions of a table, which stores have, and those of the indexes of files by name. -/
def RegionTable.gather (t : RegionTable) (index : String → Option Region) (p : Platform) :
    OpenRegions where
  region?
    | .store key => (t.find? key).map (·.region)
    | .index name => index name
  platform := p

namespace OpenRegions

/-- A path leads to the file of no store. -/
def NoStoreAt (o : OpenRegions) (path : Path) : Prop :=
  ∀ key r, o.region? (.store key) = some r → o.platform.files.target? path ≠ some r.fileId

/-- A path leads to the file of no region. -/
def NoneAt (o : OpenRegions) (path : Path) : Prop :=
  ∀ site r, o.region? site = some r → o.platform.files.target? path ≠ some r.fileId

end OpenRegions

/-! ## Stores -/

namespace RegionTable

variable {t t' : RegionTable} {index : String → Option Region} {p p' : Platform} {key : Path.Key}
  {entry : Option HeldRegion}

theorem gather_store_of_find? {held : HeldRegion} (found : t.find? key = some held) :
    (t.gather index p).region? (.store key) = some held.region := by
  simp only [gather, found, Option.map_some]

theorem gather_of_differs (differs : t.Differs key entry t') :
    t'.gather index p' = (t.gather index p).put (.store key) (entry.map (·.region)) p' := by
  refine congrArg (OpenRegions.mk · p') (funext fun site => ?_)
  cases site with
  | store other =>
    simp only [gather, Site.store.injEq]
    rw [differs]
    split <;> rfl
  | index name =>
    rw [if_neg (by simp)]
    rfl

theorem gather_update (name : String) (r : Option Region) :
    t.gather (Function.update index name r) p' = (t.gather index p).put (.index name) r p' := by
  refine congrArg (OpenRegions.mk · p') (funext fun site => ?_)
  cases site with
  | store key =>
    rw [if_neg nofun]
    rfl
  | index other => simp only [gather, Site.index.injEq, Function.update_apply]

end RegionTable

namespace Store

open RegionTable

variable {s s' : Store} {t t' : RegionTable} {p p' : Platform} {result : Except ProviderError Unit}

theorem write_goes {offset : Nat} {data : Bytes}
    (wrote : s.write offset data t p = (result, s', t', p')) (index : String → Option Region) :
    (t.gather index p).Goes (t'.gather index p') := by
  have correct := write_correct wrote
  cases region : s.region? t with
  | none =>
    rw [region] at correct
    obtain ⟨_, _, rfl, rfl⟩ := correct
    exact .refl _
  | some r =>
    rw [region] at correct
    obtain ⟨_, r', _, writing, rfl, _, flushing⟩ := correct
    obtain ⟨_, n, found⟩ := region?_eq_some_iff.mp region
    rw [gather_of_differs (differs_setRegion found r')]
    refine goes_put (gather_store_of_find? found) fun sound => ?_
    have advanced := Region.write_advanced sound writing
    exact advanced.trans ((flushing.settled advanced.sound.shows).advanced advanced.sound)

theorem sync_goes (synced : s.sync t p = (result, s', p')) (index : String → Option Region) :
    (t.gather index p).Goes (t.gather index p') := by
  have correct := sync_correct synced
  cases region : s.region? t with
  | none =>
    rw [region] at correct
    obtain ⟨_, _, rfl⟩ := correct
    exact .refl _
  | some r =>
    rw [region] at correct
    obtain ⟨_, n, found⟩ := region?_eq_some_iff.mp region
    refine goes_files fun fits => ?_
    have sound : r.Sound p := fits.sound (.store s.path.key) r (gather_store_of_find? found)
    exact ((correct.settled sound.shows).advanced sound).longer

/-- Only the last store of a path ends its region. -/
theorem close_goes (closed : s.close t p = (result, s', t', p')) (index : String → Option Region) :
    (t.gather index p).Goes (t'.gather index p') := by
  obtain ⟨_, rfl, rfl⟩ | ⟨held, _, found, ⟨_, rfl, rfl⟩ | ⟨_, rfl, rfl⟩⟩ := (close_correct closed).2
  · exact .refl _
  · rw [gather_of_differs (differs_insert t s.path.key { held with stores := held.stores - 1 })]
    exact goes_put (gather_store_of_find? found) .refl
  · rw [gather_of_differs (differs_erase t s.path.key)]
    exact goes_end (gather_store_of_find? found) fun sound => Region.close_ended sound.shows

/-- A store that is opened shares the region of its path, or opens one. -/
theorem open_steps {path : Path} {role : Role} {setup : RegionSetup} {made : Except ProviderError Store}
    {index : String → Option Region} (fits : (t.gather index p).Fits)
    (apart : made.isOk = true → t.find? path.key = none → (t.gather index p).NoneAt path)
    (opened : Store.open path role setup t p = (made, t', p')) :
    (t.gather index p).Steps (t'.gather index p') := by
  have correct := open_correct opened
  cases made with
  | error e =>
    obtain ⟨_, rfl, e', opening⟩ := correct
    exact (goes_files fun fits => (Region.open_began fits.tidy opening).1).steps fits
  | ok s =>
    obtain ⟨held, found, rfl, rfl, rfl⟩ | ⟨absent, r, opening, rfl, rfl⟩ := correct
    · rw [gather_of_differs (differs_insert t path.key { held with stores := held.stores + 1 })]
      exact (goes_put (gather_store_of_find? found) .refl).steps fits
    · rw [gather_of_differs (differs_insert t path.key ⟨r, 1⟩)]
      obtain ⟨longer, began⟩ := Region.open_began fits.tidy opening
      have began := began r rfl
      have none_at : ∀ site s, (t.gather index p).region? site = some s → s.fileId ≠ r.fileId := by
        intro site s there same
        exact apart rfl absent site s there (same ▸ began.target)
      refine steps_open fits ?_ longer began (fun key => none_at (.store key))
        (fun _ _ => none_at) nofun
      simp only [gather, absent, Option.map_none]

end Store

/-! ## Open files -/

/-- The regions of stores and those of the indexes of files by name. -/
abbrev Shared.gather (s : Shared) (index : String → Option Region) : OpenRegions :=
  s.regions.gather index s.platform

namespace OpenFile

/-- The region of the shared index of a file. -/
def indexRegion? (f : OpenFile) : Option Region := f.index.bind (·.region?)

/-- The shared index of a file is not trimmed. -/
def Untrimmed (f : OpenFile) : Prop := ∀ x, f.index = some x → x.setup.trimOnClose = false

/-- What a file does: it opens no region, and those that stay open are no smaller. A file whose index is
not mapped leaves all other indexes alone, whatever its name. -/
structure Goes (f : OpenFile) (s : Shared) (f' : OpenFile) (s' : Shared) : Prop where
  untrimmed : f.Untrimmed → f'.Untrimmed
  goes : ∀ index name, index name = f.indexRegion? →
    (s.gather index).Goes (s'.gather (Function.update index name f'.indexRegion?))
  unmapped : f.indexRegion? = none → f'.indexRegion? = none ∧
    ∀ index, (s.gather index).Goes (s'.gather index)

variable {f f' f'' : OpenFile} {s s' s'' : Shared}

theorem Goes.of_index (same : f'.index = f.index)
    (goes : ∀ index, (s.gather index).Goes (s'.gather index)) : f.Goes s f' s' := by
  have region : f'.indexRegion? = f.indexRegion? := by rw [indexRegion?, indexRegion?, same]
  refine ⟨fun untrimmed x there => untrimmed x (same ▸ there), ?_, fun none => ⟨region.trans none, goes⟩⟩
  intro index name here
  rw [region, ← here, Function.update_eq_self]
  exact goes index

theorem Goes.refl (f : OpenFile) (s : Shared) : f.Goes s f s := of_index rfl fun _ => .refl _

theorem Goes.trans (first : f.Goes s f' s') (second : f'.Goes s' f'' s'') : f.Goes s f'' s'' := by
  refine ⟨fun untrimmed => second.untrimmed (first.untrimmed untrimmed), ?_, ?_⟩
  · intro index name here
    have next := second.goes (Function.update index name f'.indexRegion?) name
      (Function.update_self ..)
    rw [Function.update_idem] at next
    exact (first.goes index name here).trans next
  · intro none
    obtain ⟨none', goes⟩ := first.unmapped none
    obtain ⟨none'', goes'⟩ := second.unmapped none'
    exact ⟨none'', fun index => (goes index).trans (goes' index)⟩

theorem write_goes (f : OpenFile) (offset : Nat) (data : Bytes) (s : Shared) :
    f.Goes s (f.write offset data s).2.1 (f.write offset data s).2.2 :=
  .of_index rfl (Store.write_goes rfl)

theorem sync_goes (f : OpenFile) (flags : SyncFlags) (s : Shared) :
    f.Goes s (f.sync flags s).2.1 (f.sync flags s).2.2 := .of_index rfl (Store.sync_goes rfl)

theorem closeStore_goes (f : OpenFile) (s : Shared) :
    f.Goes s (f.closeStore s).2.1 (f.closeStore s).2.2 := .of_index rfl (Store.close_goes rfl)

theorem releaseLocks_goes (f : OpenFile) (s : Shared) :
    f.Goes s (f.releaseLocks s).1 (f.releaseLocks s).2 := .of_index rfl fun _ => .refl _

theorem fillSlot_goes (f : OpenFile) (slot : Slot) (byte : UInt8) (s : Shared) :
    f.Goes s f (f.fillSlot slot byte s) := by
  rw [fillSlot]
  split
  · rename_i filled
    obtain ⟨x, _, filled⟩ := Option.bind_eq_some_iff.mp filled
    exact .of_index rfl fun _ => goes_files fun _ => SharedIndex.fillSlot_lengthens filled
  · exact .refl ..

theorem storeWord_goes (f : OpenFile) (slot : Slot) (i word : Nat) (s : Shared) :
    f.Goes s f (f.storeWord slot i word s) := by
  rw [storeWord]
  split
  · rename_i words _
    split
    · exact .of_index rfl fun _ => goes_files fun _ => SharedIndex.wordStore_lengthens words i word _
    · exact .refl ..
  · exact .refl ..

theorem barrier_goes (f : OpenFile) (s : Shared) : f.Goes s f (f.barrier s) := by
  rw [barrier]
  split
  · exact .refl ..
  · rename_i x _
    exact .of_index rfl fun _ => goes_files fun _ => x.barrier_lengthens _

theorem unmapIndex_goes (f : OpenFile) (delete : Bool) (s : Shared) :
    f.Goes s (f.unmapIndex delete s).2.1 (f.unmapIndex delete s).2.2 ∧
      (f.unmapIndex delete s).2.1.indexRegion? = none := by
  rw [unmapIndex]
  cases index : f.index with
  | none => exact ⟨.refl f s, by rw [indexRegion?, index, Option.bind_none]⟩
  | some x =>
    dsimp only
    cases found : x.region? with
    | none =>
      rw [SharedIndex.unmap_of_none found]
      exact ⟨.of_index index.symm fun _ => .refl _, found⟩
    | some r =>
      have mapped : f.indexRegion? = some r := by rw [indexRegion?, index, Option.bind_some, found]
      have unmapped := SharedIndex.unmap_region (p := s.platform) found delete
      have absent : (x.unmap delete s.platform).2.1.region? = none := by rw [unmapped]; rfl
      refine ⟨⟨?_, ?_, fun none => ?_⟩, absent⟩
      · rintro untrimmed _ ⟨⟩
        rw [unmapped]
        exact untrimmed x index
      · intro indexes name here
        rw [indexRegion?, Option.bind_some, absent, Shared.gather, Shared.gather,
          RegionTable.gather_update]
        refine goes_unmap fun fits => ?_
        have there : indexes name = some r := here.trans mapped
        exact SharedIndex.unmap_lengthens found (fits.sound (.index name) r there)
          (fits.untrimmed name r there) delete
      · rw [mapped] at none
        cases none

/-- Only closing has to do with the number of stores of a path. -/
theorem unmapIndex_store (f : OpenFile) (delete : Bool) (s : Shared) :
    (f.unmapIndex delete s).2.1.store = f.store ∧ (f.unmapIndex delete s).2.2.regions = s.regions := by
  rw [unmapIndex]
  split <;> exact ⟨rfl, rfl⟩

theorem requestSlot_store (f : OpenFile) (i slotSize : Nat) (extend : Bool) (s : Shared) :
    (f.requestSlot i slotSize extend s).2.1.store = f.store ∧
      (f.requestSlot i slotSize extend s).2.2.regions = s.regions := by
  rw [requestSlot]
  split <;> exact ⟨rfl, rfl⟩

theorem fillSlot_table (f : OpenFile) (slot : Slot) (byte : UInt8) (s : Shared) :
    (f.fillSlot slot byte s).regions = s.regions ∧ (f.fillSlot slot byte s).locks = s.locks := by
  rw [fillSlot]
  split <;> exact ⟨rfl, rfl⟩

theorem storeWord_table (f : OpenFile) (slot : Slot) (i word : Nat) (s : Shared) :
    (f.storeWord slot i word s).regions = s.regions ∧ (f.storeWord slot i word s).locks = s.locks := by
  rw [storeWord]
  split
  · split <;> exact ⟨rfl, rfl⟩
  · exact ⟨rfl, rfl⟩

theorem barrier_table (f : OpenFile) (s : Shared) :
    (f.barrier s).regions = s.regions ∧ (f.barrier s).locks = s.locks := by
  rw [barrier]
  split <;> exact ⟨rfl, rfl⟩

theorem write_eq {offset : Nat} {data : Bytes} {result : Except ProviderError Unit} {store : Store}
    {t : RegionTable} {p : Platform}
    (writing : f.store.write offset data s.regions s.platform = (result, store, t, p)) :
    f.write offset data s = (result, { f with store }, { s with regions := t, platform := p }) := by
  rw [write, writing]

theorem sync_eq {result : Except ProviderError Unit} {store : Store} {p : Platform}
    (syncing : f.store.sync s.regions s.platform = (result, store, p)) (flags : SyncFlags) :
    f.sync flags s = (result, { f with store }, { s with platform := p }) := by
  rw [sync, syncing]

theorem closeStore_eq {result : Except ProviderError Unit} {store : Store} {t : RegionTable}
    {p : Platform} (closing : f.store.close s.regions s.platform = (result, store, t, p)) :
    f.closeStore s = (result, { f with store }, { s with regions := t, platform := p }) := by
  rw [closeStore, closing]

theorem close_of_closed (isClosed : f.store.closed = true) (s : Shared) : f.close s = (.ok (), f, s) := by
  rw [close, if_pos isClosed]

/-- A file that is closed lets go of its locks and its index before its store is closed. -/
theorem close_eq (isOpen : f.store.closed = false) (s : Shared) : (f.close s).2 =
    let unmapped := ((f.releaseLocks s).1.unmapIndex false (f.releaseLocks s).2).2
    (unmapped.1.closeStore unmapped.2).2 := by
  rw [close, if_neg (by simp [isOpen])]
  dsimp only
  rcases ((f.releaseLocks s).1.unmapIndex false (f.releaseLocks s).2) with ⟨unmapped, f₁, s₁⟩
  dsimp only
  rcases f₁.closeStore s₁ with ⟨_ | _, f₂, s₂⟩ <;> rfl

theorem close_goes (f : OpenFile) (s : Shared) : f.Goes s (f.close s).2.1 (f.close s).2.2 := by
  cases isClosed : f.store.closed with
  | true =>
    rw [close_of_closed isClosed]
    exact .refl f s
  | false =>
    rw [close_eq isClosed]
    exact (f.releaseLocks_goes s).trans ((unmapIndex_goes ..).1.trans (closeStore_goes ..))

/-- A file that is dropped is closed, and its locks and its index are let go of once more. -/
theorem drop_eq {result : Except ProviderError Unit} (closing : f.close s = (result, f', s')) :
    f.drop s = ((f'.releaseLocks s').1.unmapIndex false (f'.releaseLocks s').2).2.2 := by
  simp only [drop, closing, unmapIndex, releaseLocks]
  split <;> rfl

/-- Nothing is left of a file that is dropped. -/
theorem drop_goes (f : OpenFile) (s : Shared) :
    ∃ f', f.Goes s f' (f.drop s) ∧ f'.indexRegion? = none := by
  have closed := f.close_goes s
  rcases closing : f.close s with ⟨_, f₁, s₁⟩
  rw [closing] at closed
  have released := f₁.releaseLocks_goes s₁
  obtain ⟨unmapped, none⟩ := (f₁.releaseLocks s₁).1.unmapIndex_goes false (f₁.releaseLocks s₁).2
  rw [drop_eq closing]
  exact ⟨_, closed.trans (released.trans unmapped), none⟩

/-! ## Requests -/

/-- The file of a store is not mapped as an index. -/
def Apart (f : OpenFile) (o : OpenRegions) : FileRequest → Prop
  | .requestSlot i slotSize extend => ∀ x, f.index = some x → x.region? = none →
    (x.requestSlot i slotSize extend o.platform).2.1.region? ≠ none → o.NoStoreAt x.path
  | _ => True

/-- What a request to the file of a name comes to: regions fit, and those that stay open are no smaller. -/
structure Steps (index : String → Option Region) (name : String) (s : Shared) (f' : OpenFile)
    (s' : Shared) : Prop where
  untrimmed : f'.Untrimmed
  steps : (s.gather index).Steps (s'.gather (Function.update index name f'.indexRegion?))

variable {index : String → Option Region} {name : String}

theorem Goes.steps (goes : f.Goes s f' s') (fits : (s.gather index).Fits)
    (here : index name = f.indexRegion?) (untrimmed : f.Untrimmed) : Steps index name s f' s' :=
  ⟨goes.untrimmed untrimmed, (goes.goes index name here).steps fits⟩

theorem index_goes {t : RegionTable} {r r' : Region} {p p' : Platform} (here : index name = some r)
    (advanced : r.Sound p → r.Advanced p r' p') :
    (t.gather index p).Goes (t.gather (Function.update index name (some r')) p') := by
  rw [RegionTable.gather_update]
  have found : (t.gather index p).region? (.index name) = some r := here
  exact goes_put found advanced

theorem requestSlot_steps (fits : (s.gather index).Fits) (here : index name = f.indexRegion?)
    (untrimmed : f.Untrimmed) {i slotSize : Nat} {extend : Bool}
    (apart : f.Apart (s.gather index) (.requestSlot i slotSize extend))
    {result : Except ProviderError (Option Slot)}
    (requested : f.requestSlot i slotSize extend s = (result, f', s')) : Steps index name s f' s' := by
  rw [requestSlot] at requested
  cases has : f.index with
  | none =>
    rw [has] at requested
    cases requested
    exact (Goes.refl f s).steps fits here untrimmed
  | some x =>
    rw [has] at requested
    dsimp only at requested
    rcases request : x.requestSlot i slotSize extend s.platform with ⟨slot, x', p'⟩
    rw [request] at requested
    cases requested
    have region : f.indexRegion? = x.region? := by rw [indexRegion?, has, Option.bind_some]
    cases SharedIndex.requestSlot_correct request with
    | idle => exact (Goes.of_index has.symm fun _ => .refl _).steps fits here untrimmed
    | failed absent opening =>
      have goes : f.Goes s { f with index := some x } { s with platform := p' } :=
        .of_index has.symm fun _ => goes_files fun fits => (Region.open_began fits.tidy opening).1
      exact goes.steps fits here untrimmed
    | mapped found same later advanced =>
      constructor
      · rintro _ ⟨⟩
        rw [same.setup]
        exact untrimmed x has
      · rw [indexRegion?, Option.bind_some, later]
        exact (index_goes ((here.trans region).trans found) advanced).steps fits
    | @opened setup r r' _ p₁ _ absent trims opening same later advanced =>
      obtain ⟨longer, began⟩ := Region.open_began fits.tidy opening
      have began := began r rfl
      have mapped : (x.requestSlot i slotSize extend s.platform).2.1.region? ≠ none := by
        rw [request, later]
        exact nofun
      -- The region may have grown after it was opened, so this is two steps under one name.
      have opened : (s.gather index).Steps
          (s.regions.gather (Function.update index name (some r)) p₁) := by
        rw [RegionTable.gather_update]
        refine steps_open fits ((here.trans region).trans absent) longer began ?_ nofun ?_
        · intro key other there same_file
          exact apart x has absent mapped key other there (same_file ▸ began.target)
        · rintro _ _
          rw [began.setup_eq, trims]
          exact untrimmed x has
      constructor
      · rintro _ ⟨⟩
        rw [same.setup]
        exact untrimmed x has
      · have grown := opened.goes (index_goes (Function.update_self ..) advanced)
        rw [Function.update_idem] at grown
        rw [indexRegion?, Option.bind_some, later]
        exact grown

/-- No request opens a region, but for that of a slot. -/
theorem serve_goes (f : OpenFile) {request : FileRequest}
    (other : ∀ i slotSize extend, request ≠ .requestSlot i slotSize extend) (s : Shared) :
    f.Goes s (f.serve request s).1 (f.serve request s).2 := by
  cases request with
  | requestSlot i slotSize extend => exact absurd rfl (other i slotSize extend)
  | write offset data => exact f.write_goes offset data s
  | truncate size => exact .refl f s
  | sync flags => exact f.sync_goes flags s
  | lock level => exact .of_index rfl fun _ => .refl _
  | unlock level => exact .of_index rfl fun _ => .refl _
  | lockSlots offset n op => exact .of_index rfl fun _ => .refl _
  | fillSlot slot byte => exact f.fillSlot_goes slot byte s
  | storeWord slot i word => exact f.storeWord_goes slot i word s
  | barrier => exact f.barrier_goes s
  | unmapIndex delete => exact (f.unmapIndex_goes delete s).1
  | close => exact f.close_goes s

theorem serve_steps (fits : (s.gather index).Fits) (here : index name = f.indexRegion?)
    (untrimmed : f.Untrimmed) {request : FileRequest} (apart : f.Apart (s.gather index) request)
    (served : f.serve request s = (f', s')) : Steps index name s f' s' := by
  by_cases slot : ∃ i slotSize extend, request = .requestSlot i slotSize extend
  · obtain ⟨i, slotSize, extend, rfl⟩ := slot
    exact requestSlot_steps fits here untrimmed apart (Prod.ext rfl served)
  · have goes := f.serve_goes (fun i slotSize extend same => slot ⟨i, slotSize, extend, same⟩) s
    rw [served] at goes
    exact goes.steps fits here untrimmed

end OpenFile

/-! ## Files by path -/

namespace Provider

variable {v : Provider} {s s' : Shared} {index : String → Option Region}

/-- A file is opened by a path that has a region already, or leads to the file of no region. -/
def Apart (v : Provider) (s : Shared) (index : String → Option Region) (path : Option Path)
    (flags : OpenFlags) : Prop :=
  ∀ named, path = some named → (v.openFile path flags s).1.isOk = true →
    let real := v.resolve named flags.kind
    s.regions.find? real.key = none → (s.gather index).NoneAt real

/-- What opening a file comes to: it is refused before anything happens, or a store is opened. -/
inductive Opened (v : Provider) (path : Option Path) (flags : OpenFlags) (s : Shared) :
    Except ProviderError OpenFile → Shared → Prop
  | refused (e : ProviderError) : Opened v path flags s (.error e) s
  | failed {named : Path} {role : Role} {setup : RegionSetup} {e : ProviderError} {t : RegionTable}
      {p : Platform} (leads : path = some named)
      (opening : Store.open (v.resolve named flags.kind) role setup s.regions s.platform =
        (.error e, t, p)) (planned : v.regionSetup = .ok setup)
      (present : flags.create = true ∨
        s.platform.files.isPresent (v.resolve named flags.kind) = true) :
      Opened v path flags s (.error e) { s with regions := t, platform := p }
  | opened {named : Path} {role : Role} {setup : RegionSetup} {store : Store} {t : RegionTable}
      {p : Platform} {f : OpenFile} {s' : Shared} (leads : path = some named)
      (opening : Store.open (v.resolve named flags.kind) role setup s.regions s.platform =
        (.ok store, t, p))
      (made : v.assemble named (v.resolve named flags.kind) flags.kind setup store
        { s with regions := t, platform := p } = (f, s')) (planned : v.regionSetup = .ok setup)
      (present : flags.create = true ∨
        s.platform.files.isPresent (v.resolve named flags.kind) = true) :
      Opened v path flags s (.ok f) s'

variable {path : Option Path} {flags : OpenFlags}

theorem openFile_opened {result : Except ProviderError OpenFile}
    (opened : v.openFile path flags s = (result, s')) : v.Opened path flags s result s' := by
  rcases path with _ | named
  · cases opened
    exact .refused _
  cases role : flags.kind.role with
  | none =>
    simp only [openFile, role] at opened
    cases opened
    exact .refused _
  | some role' =>
    simp only [openFile, role] at opened
    split at opened
    · cases opened
      exact .refused _
    · split at opened
      · cases opened
        exact .refused _
      · rename_i missing
        have present : flags.create = true ∨
            s.platform.files.isPresent (v.resolve named flags.kind) = true := by
          simpa [or_iff_not_imp_left] using missing
        split at opened
        · cases opened
          exact .refused _
        · rename_i setup planned
          split at opened
          · rename_i opening
            cases opened
            exact .failed rfl opening planned present
          · rename_i store t p opening
            rcases made : v.assemble named (v.resolve named flags.kind) flags.kind setup store
              { s with regions := t, platform := p } with ⟨f, s₂⟩
            rw [made] at opened
            cases opened
            exact .opened rfl opening made planned present

/-- A file that is put together has the store, an index if it is a database, and as holder of locks one
that holds nothing yet. -/
structure Assembled (v : Provider) (named real : Path) (kind : FileKind) (setup : RegionSetup)
    (store : Store) (s : Shared) (f : OpenFile) (s' : Shared) : Prop where
  store : f.store = store
  index : f.index = if kind = .mainDb then
      some (SharedIndex.new (Placement.indexPath named v.settings.directory) setup
        v.settings.indexBaseSize)
    else none
  regions : s'.regions = s.regions
  platform : s'.platform = s.platform
  locks : f.client = .none ∧ s'.locks = s.locks ∨
    f.client = .inProcess (s.locks.addHolder real).1 ∧ s'.locks = (s.locks.addHolder real).2

theorem assemble_correct {named real : Path} {kind : FileKind} {setup : RegionSetup} {store : Store}
    {f : OpenFile} (made : v.assemble named real kind setup store s = (f, s')) :
    v.Assembled named real kind setup store s f s' := by
  rw [assemble] at made
  split at made
  · cases made
    exact ⟨rfl, rfl, rfl, rfl, .inl ⟨rfl, rfl⟩⟩
  · cases made
    exact ⟨rfl, rfl, rfl, rfl, .inr ⟨rfl, rfl⟩⟩

/-- The index of a file that was opened just now is not mapped. -/
theorem assemble_new {named real : Path} {kind : FileKind} {setup : RegionSetup} {store : Store}
    {f : OpenFile} (made : v.assemble named real kind setup store s = (f, s'))
    (index : String → Option Region) :
    s'.gather index = s.gather index ∧ f.indexRegion? = none ∧ f.Untrimmed := by
  have made := assemble_correct made
  have new : ∀ x, f.index = some x → x.region? = none ∧ x.setup.trimOnClose = false := by
    intro x has
    rw [made.index] at has
    split at has <;> cases has
    exact ⟨rfl, rfl⟩
  refine ⟨?_, ?_, fun x has => (new x has).2⟩
  · rw [Shared.gather, made.regions, made.platform]
  · exact Option.bind_eq_none_iff.mpr fun x has => (new x has).1

theorem openFile_steps {result : Except ProviderError OpenFile} (fits : (s.gather index).Fits)
    (apart : v.Apart s index path flags) (opened : v.openFile path flags s = (result, s')) :
    (s.gather index).Steps (s'.gather index) ∧
      ∀ f, result = .ok f → f.indexRegion? = none ∧ f.Untrimmed := by
  cases openFile_opened opened with
  | refused e => exact ⟨(OpenRegions.Goes.refl _).steps fits, fun _ => nofun⟩
  | failed leads opening =>
    exact ⟨Store.open_steps fits (fun ok => by cases ok) opening, fun _ => nofun⟩
  | opened leads opening made =>
    obtain ⟨same, new⟩ := assemble_new made index
    have separate := apart _ leads (by rw [opened]; rfl)
    rw [same]
    refine ⟨Store.open_steps fits (fun _ => separate) opening, ?_⟩
    rintro _ ⟨⟩
    exact new

/-- What asking for a size comes to: the file can not be opened, or is closed and dropped again. -/
inductive Sized (v : Provider) (path : Option Path) (flags : OpenFlags) (s : Shared) : Shared → Prop
  | failed {e : ProviderError} {s₁ : Shared} (opening : v.openFile path flags s = (.error e, s₁)) :
      Sized v path flags s s₁
  | sized {f f' : OpenFile} {s₁ s₂ : Shared} (opening : v.openFile path flags s = (.ok f, s₁))
      (closing : (f.close s₁).2 = (f', s₂)) : Sized v path flags s (f'.drop s₂)

theorem sizeOf_sized {result : Except ProviderError Nat} (asked : v.sizeOf path flags s = (result, s')) :
    v.Sized path flags s s' := by
  rw [sizeOf] at asked
  rcases opening : v.openFile path flags s with ⟨_ | f, s₁⟩
  · rw [opening] at asked
    cases asked
    exact .failed opening
  · rcases closing : f.close s₁ with ⟨_ | _, f', s₂⟩
    all_goals
      simp only [opening, closing] at asked
      cases asked
      exact .sized opening (congrArg Prod.snd closing)

/-- A file that is opened for its size is gone again. -/
theorem sizeOf_steps (fits : (s.gather index).Fits) (apart : v.Apart s index path flags) :
    (s.gather index).Steps ((v.sizeOf path flags s).2.gather index) := by
  rcases asked : v.sizeOf path flags s with ⟨_, s'⟩
  cases sizeOf_sized asked with
  | failed opening => exact (openFile_steps fits apart opening).1
  | @sized f f' s₁ s₂ opening closing =>
    obtain ⟨opened, new⟩ := openFile_steps fits apart opening
    have gone := f.close_goes s₁
    rw [closing] at gone
    obtain ⟨_, dropped, _⟩ := f'.drop_goes s₂
    obtain ⟨_, goes⟩ := (gone.trans dropped).unmapped (new f rfl).1
    exact opened.goes (goes index)

theorem delete_table (v : Provider) (path : Path) (syncing : Bool) (s : Shared) :
    (v.delete path syncing s).2.regions = s.regions ∧ (v.delete path syncing s).2.locks = s.locks := by
  rw [delete]
  dsimp only
  split
  · split <;> exact ⟨rfl, rfl⟩
  · exact ⟨rfl, rfl⟩

theorem delete_goes (v : Provider) (path : Path) (syncing : Bool) (s : Shared) :
    (s.gather index).Goes ((v.delete path syncing s).2.gather index) := by
  rw [delete]
  dsimp only
  split
  · split
    · exact .refl _
    · exact .refl _
  · rename_i unlinked
    exact goes_files fun _ => FileSystem.unlink_lengthens unlinked

end Provider
end MappedStorage
