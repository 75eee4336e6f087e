import MappedStorage.Proofs.Provider.Counts
import MappedStorage.Proofs.Provider.Separation
import MappedStorage.Proofs.Store.Retention

/-!
What the file of a path holds while files are opened, written and closed. As long as no other path leads
there and nothing takes its name away (`OpenFiles.KeepsApart`), it holds the bytes that were written through
the files that are open on the path (`OpenFiles.run_keeps`), and these files show them
(`OpenFile.shows_of_retains`).
-/

namespace MappedStorage

open OpenRegions

/-- Another path leads to another place, and to another file. -/
structure FileSystem.LeadsApart (fs : FileSystem) (real path : Path) : Prop where
  key : path.key ≠ real.key
  place : fs.resolve .create path ≠ fs.resolve .create real
  file : ∀ h, fs.openExisting real true = .ok h → fs.target? path ≠ some h.file

/-- A path leads to a file that holds these bytes, and no region but that of the path is over it. -/
structure Shared.Keeps (s : Shared) (index : String → Option Region) (real : Path) (id : FileId)
    (bytes : Bytes) : Prop where
  leads : s.platform.files.openExisting real true = .ok ⟨id, true⟩
  apart : ∀ site r, (s.gather index).region? site = some r → site ≠ .store real.key → r.fileId ≠ id
  retains : s.regions.Retains real.key id bytes s.platform

namespace OpenFile

/-- A file shows these bytes. -/
structure Shows (f : OpenFile) (s : Shared) (bytes : Bytes) : Prop where
  size : f.fileSize s = .ok bytes.size
  reads : ∀ offset buffer, f.readInto offset buffer s =
    (if offset + buffer.size ≤ bytes.size then .ok ()
      else .error (.shortRead offset buffer.size bytes.size), window bytes offset buffer.size)
  fetches : ∀ offset len, f.fetch? offset len s =
    if offset + len ≤ bytes.size then some (window bytes offset len) else none

/-- What a request makes of the bytes of a path: a write through a file of the path lays its own over them
if it stores them. -/
def rewrites (f : OpenFile) (key : Path.Key) (s : Shared) (bytes : Bytes) : FileRequest → Bytes
  | .write offset data =>
    if f.path.key = key ∧ f.store.takes offset data s.regions s.platform then
      overlaid bytes offset data
    else bytes
  | _ => bytes

variable {f f' : OpenFile} {s s' : Shared} {index : String → Option Region} {name : String}
  {key : Path.Key} {id : FileId} {bytes : Bytes} {real : Path} {request : FileRequest}

/-- An open file shows what is held for its path. -/
theorem shows_of_retains (retains : s.regions.Retains f.path.key id bytes s.platform)
    (present : s.regions.find? f.path.key ≠ none) (isOpen : f.store.closed = false) :
    f.Shows s bytes := by
  obtain ⟨held, found⟩ := Option.ne_none_iff_exists'.mp present
  obtain ⟨_, _, clear, rfl⟩ := retains.bears found
  have sound := clear.toSound
  have region : f.store.region? s.regions = some held.region :=
    Store.region?_eq_some_iff.mpr ⟨isOpen, held.stores, found⟩
  have used := Region.size_validBytes sound
  constructor
  case size => rw [fileSize, if_neg (by simp [isOpen]), Store.fileSize_eq region, used]
  case reads =>
    intro offset buffer
    rw [readInto, Store.readInto_correct region sound, used]
    rfl
  case fetches =>
    intro offset len
    rw [fetch?, Store.fetch?_correct region sound, used]

/-! ## Requests -/

/-- What is done to the index of a file alone is nothing to the file of a store. -/
theorem retains_of_leaves {keys : Path.Key → Prop} {ids : FileId → Prop}
    (retains : s.regions.Retains key id bytes s.platform) (leaves : s.Leaves keys ids s')
    (still : ¬ keys key) (away : ¬ ids id) : s'.regions.Retains key id bytes s'.platform :=
  retains.of_spares (leaves.regions key still) (leaves.spares id away)

theorem close_retains (shows : ∀ r, f.indexRegion? = some r → ∀ m ∈ r.mapped, m.file = r.fileId)
    (retains : s.regions.Retains f.path.key id bytes s.platform) (index : ¬ f.HasIndex id) :
    (f.close s).2.2.regions.Retains f.path.key id bytes (f.close s).2.2.platform := by
  cases isClosed : f.store.closed with
  | true =>
    rw [close_of_closed isClosed]
    exact retains
  | false =>
    rw [close_eq isClosed]
    obtain ⟨store, _⟩ := (f.releaseLocks s).1.unmapIndex_store false (f.releaseLocks s).2
    have left := (unmapIndex_leaves (f := (f.releaseLocks s).1) (s := (f.releaseLocks s).2) shows false).1
    have kept := retains_of_leaves (s := (f.releaseLocks s).2) retains left (fun none => none) index
    rcases unmapping : (f.releaseLocks s).1.unmapIndex false (f.releaseLocks s).2 with ⟨_, f₂, s₂⟩
    rw [unmapping] at store kept
    have path : f.path = f₂.path := (congrArg Store.path store).symm
    rw [path] at kept ⊢
    rcases closing : f₂.store.close s₂.regions s₂.platform with ⟨result, store', t, p⟩
    dsimp only
    rw [closeStore_eq closing]
    exact Store.close_retains kept closing

theorem serve_retains (fits : f.Fits s) (retains : s.regions.Retains key id bytes s.platform)
    (index : ¬ f.HasIndex id) (store : f.path.key ≠ key → ¬ f.HasStore s id)
    (slot : ∀ i slotSize extend, request = .requestSlot i slotSize extend → ¬ f.MayMap s id) :
    (f.serve request s).2.regions.Retains key id (f.rewrites key s bytes request)
      (f.serve request s).2.platform := by
  have frame := retains_of_leaves retains (serve_leaves fits request).1
  cases request with
  | write offset data =>
    by_cases own : f.path.key = key
    · subst own
      rcases writing : f.store.write offset data s.regions s.platform with ⟨result, store', t, p⟩
      rw [serve, write_eq writing, rewrites]
      simp only [true_and]
      exact Store.write_retains retains writing
    · rw [rewrites, if_neg fun both => own both.1]
      exact frame (fun moved => own moved.symm) (store own)
  | sync flags =>
    by_cases own : f.path.key = key
    · subst own
      rcases syncing : f.store.sync s.regions s.platform with ⟨result, store', p⟩
      rw [serve, sync_eq syncing]
      exact Store.sync_retains retains syncing
    · exact frame (fun none => none) (store own)
  | close =>
    by_cases own : f.path.key = key
    · subst own
      exact close_retains (fun r mapped => (fits.index r mapped).shows) retains index
    · exact frame (fun moved => own moved.symm) fun reached => reached.elim (store own) index
  | requestSlot i slotSize extend =>
    exact frame (fun none => none) fun reached => reached.elim index (slot i slotSize extend rfl)
  | fillSlot | storeWord | barrier | unmapIndex => exact frame (fun none => none) index
  | truncate | lock | unlock | lockSlots => exact retains

theorem drop_retains (fits : f.Fits s) (retains : s.regions.Retains key id bytes s.platform)
    (index : ¬ f.HasIndex id) (store : f.path.key ≠ key → ¬ f.HasStore s id) :
    (f.drop s).regions.Retains key id bytes (f.drop s).platform := by
  have closed : (f.serve .close s).2.regions.Retains key id bytes (f.serve .close s).2.platform :=
    serve_retains fits retains index store nofun
  have before {r : Region} := indexRegion?_of_close (f := f) (s := s) (r := r)
  rcases closing : f.close s with ⟨result, f₁, s₁⟩
  rw [serve, closing] at closed
  rw [closing] at before
  obtain ⟨unmapped, _⟩ := (f₁.releaseLocks s₁).1.unmapIndex_leaves (s := (f₁.releaseLocks s₁).2)
    (fun r mapped => (fits.index r (before mapped)).shows) false
  rw [drop_eq closing]
  refine retains_of_leaves (s := (f₁.releaseLocks s₁).2) closed unmapped (fun none => none) ?_
  rintro ⟨r, mapped, here⟩
  exact index ⟨r, before mapped, here⟩

end OpenFile

/-! ## Regions of other paths -/

namespace Shared

variable {f : OpenFile} {s s' : Shared} {index index' : String → Option Region} {name : String}
  {real : Path} {id : FileId} {bytes bytes' : Bytes}

theorem Keeps.not_hasIndex (keeps : s.Keeps index real id bytes) (here : index name = f.indexRegion?) :
    ¬ f.HasIndex id := by
  rintro ⟨r, mapped, file⟩
  exact keeps.apart (.index name) r (here.trans mapped) nofun file

theorem Keeps.not_hasStore (keeps : s.Keeps index real id bytes) (other : f.path.key ≠ real.key) :
    ¬ f.HasStore s id := by
  rintro ⟨held, found, file⟩
  exact keeps.apart (.store f.path.key) held.region (RegionTable.gather_store_of_find? found)
    (fun same => other (Site.store.inj same)) file

/-- Where no region is opened, others stay over other files. -/
theorem Keeps.of_goes (keeps : s.Keeps index real id bytes) (fits : (s.gather index).Fits)
    (goes : (s.gather index).Goes (s'.gather index'))
    (leads : s'.platform.files.openExisting real true = .ok ⟨id, true⟩)
    (retains : s'.regions.Retains real.key id bytes' s'.platform) :
    s'.Keeps index' real id bytes' := by
  refine ⟨leads, ?_, retains⟩
  intro site r' found other
  obtain ⟨r, before, later⟩ := (goes fits).2 site r' found
  rw [later.same.fileId_eq]
  exact keeps.apart site r before other

end Shared

namespace OpenFile

variable {f : OpenFile} {s : Shared} {index : String → Option Region} {name : String} {real : Path}
  {id : FileId} {bytes : Bytes} {request : FileRequest}

theorem serve_keeps (fits : (s.gather index).Fits) (here : index name = f.indexRegion?)
    (keeps : s.Keeps index real id bytes)
    (slot : ∀ i slotSize extend, request = .requestSlot i slotSize extend → ¬ f.MayMap s id)
    (leads : request = .unmapIndex true → (f.serve request s).2.platform.files.resolve .reach real =
      s.platform.files.resolve .reach real) :
    (f.serve request s).2.Keeps (Function.update index name (f.serve request s).1.indexRegion?) real id
      (f.rewrites real.key s bytes request) := by
  have own := fits_of_gather fits here
  have retains := serve_retains own keeps.retains (keeps.not_hasIndex here) keeps.not_hasStore slot
  have leads : (f.serve request s).2.platform.files.openExisting real true = .ok ⟨id, true⟩ := by
    by_cases deleted : request = .unmapIndex true
    · rw [FileSystem.openExisting, leads deleted]
      exact keeps.leads
    · exact ((serve_leaves own request).2 deleted).leads keeps.leads
  by_cases requested : ∃ i slotSize extend, request = .requestSlot i slotSize extend
  · obtain ⟨i, slotSize, extend, rfl⟩ := requested
    obtain ⟨_, regions⟩ := f.requestSlot_store i slotSize extend s
    refine ⟨leads, ?_, retains⟩
    intro site r found other
    cases site with
    | store key =>
      obtain ⟨held, there, rfl⟩ := Option.map_eq_some_iff.mp found
      rw [serve, regions] at there
      exact keeps.apart (.store key) held.region (RegionTable.gather_store_of_find? there) other
    | index called =>
      have mapped : Function.update index name (f.serve (.requestSlot i slotSize extend) s).1.indexRegion?
        called = some r := found
      rw [Function.update_apply] at mapped
      split at mapped
      · obtain ⟨r₀, before, file⟩ | ⟨may, _⟩ := serve_began own mapped
        · rw [← file]
          exact keeps.apart (.index name) r₀ (here.trans before) (by simp)
        · rintro rfl
          exact slot i slotSize extend rfl may
      · exact keeps.apart (.index called) r mapped other
  · have goes := f.serve_goes (fun i slotSize extend same => requested ⟨i, slotSize, extend, same⟩) s
    exact keeps.of_goes fits (goes.goes index name here) leads retains

theorem drop_keeps (fits : (s.gather index).Fits) (here : index name = f.indexRegion?)
    (keeps : s.Keeps index real id bytes) :
    (f.drop s).Keeps (Function.update index name none) real id bytes := by
  have own := fits_of_gather fits here
  obtain ⟨f', goes, gone⟩ := f.drop_goes s
  have goes := goes.goes index name here
  rw [gone] at goes
  refine keeps.of_goes fits goes ?_ (drop_retains own keeps.retains (keeps.not_hasIndex here) keeps.not_hasStore)
  rw [(drop_leaves own).2.openExisting]
  exact keeps.leads

end OpenFile

namespace Provider

variable {v : Provider} {path : Option Path} {flags : OpenFlags} {s s' : Shared}
  {index : String → Option Region} {real : Path} {id : FileId} {bytes : Bytes}

/-- A path that is opened is this one, or leads elsewhere. -/
def OpensApart (v : Provider) (real : Path) (path : Option Path) (flags : OpenFlags)
    (fs : FileSystem) : Prop :=
  ∀ named, path = some named →
    v.resolve named flags.kind = real ∨ fs.LeadsApart real (v.resolve named flags.kind)

/-- The regions of stores are trimmed. -/
theorem trims_of_planned {setup : RegionSetup} (planned : v.regionSetup = .ok setup) :
    setup.trimOnClose = true := by
  rw [regionSetup] at planned
  split at planned <;> cases planned
  rfl

theorem openFile_retains {result : Except ProviderError OpenFile} (keeps : s.Keeps index real id bytes)
    (apart : v.OpensApart real path flags s.platform.files)
    (opened : v.openFile path flags s = (result, s')) :
    s'.regions.Retains real.key id bytes s'.platform := by
  by_cases own : ∃ named, path = some named ∧ v.resolve named flags.kind = real
  · obtain ⟨named, rfl, rfl⟩ := own
    cases openFile_opened opened with
    | refused e => exact keeps.retains
    | failed leads opening planned =>
      cases leads
      exact Store.open_retains keeps.retains (trims_of_planned planned) keeps.leads opening
    | opened leads opening made planned =>
      cases leads
      have made := assemble_correct made
      rw [made.regions, made.platform]
      exact Store.open_retains keeps.retains (trims_of_planned planned) keeps.leads opening
  · have elsewhere (named : Path) (leads : path = some named) :
        s.platform.files.LeadsApart real (v.resolve named flags.kind) :=
      (apart named leads).resolve_left fun here => own ⟨named, leads, here⟩
    have leaves := (openFile_leaves opened).1
    refine keeps.retains.of_spares (leaves.regions real.key ?_) (leaves.spares id ?_)
    · rintro ⟨named, leads, same⟩
      exact (elsewhere named leads).key same.symm
    · rintro ⟨named, leads, _, target⟩
      exact (elsewhere named leads).file _ keeps.leads target

theorem openFile_keeps {result : Except ProviderError OpenFile} (keeps : s.Keeps index real id bytes)
    (apart : v.OpensApart real path flags s.platform.files)
    (opened : v.openFile path flags s = (result, s')) : s'.Keeps index real id bytes := by
  refine ⟨(openFile_leaves opened).2.1.leads keeps.leads, ?_, openFile_retains keeps apart opened⟩
  intro site r found other
  cases site with
  | index name => exact keeps.apart (.index name) r found other
  | store key =>
    obtain ⟨held', there, rfl⟩ := Option.map_eq_some_iff.mp found
    obtain ⟨held, before, same⟩ | ⟨⟨named, leads, rfl⟩, named', leads', _, target⟩ :=
      openFile_began opened there
    · rw [same]
      exact keeps.apart (.store key) held.region (RegionTable.gather_store_of_find? before) other
    · cases leads.symm.trans leads'
      obtain rfl | elsewhere := apart named leads
      · exact absurd rfl other
      · rintro rfl
        exact elsewhere.file _ keeps.leads target

theorem sizeOf_keeps (fits : (s.gather index).Fits) (keeps : s.Keeps index real id bytes)
    (separate : v.Separate s index path flags) (apart : v.OpensApart real path flags s.platform.files) :
    (v.sizeOf path flags s).2.Keeps index real id bytes := by
  rcases asked : v.sizeOf path flags s with ⟨_, s'⟩
  cases sizeOf_sized asked with
  | failed opening => exact openFile_keeps keeps apart opening
  | @sized f f' s₁ s₂ opening closing =>
    have opened := openFile_keeps keeps apart opening
    have fits₁ := (openFile_steps fits separate.apart opening).1.fits
    have unmapped := openFile_unmapped opening
    have none {g : OpenFile} (unmapped : g.indexRegion? = none) : ¬ g.HasIndex id := by
      rintro ⟨r, mapped, _⟩
      exact absurd (unmapped.symm.trans mapped) nofun
    have own := OpenFile.fits_of_none fits₁ unmapped
    have retains : (f.serve .close s₁).2.regions.Retains real.key id bytes
        (f.serve .close s₁).2.platform :=
      OpenFile.serve_retains own opened.retains (none unmapped) opened.not_hasStore nofun
    have names := (OpenFile.close_leaves own).2
    have goes := f.close_goes s₁
    rw [OpenFile.serve, closing] at retains
    rw [closing] at names goes
    obtain ⟨unmapped', goes⟩ := goes.unmapped unmapped
    have closed : s₂.Keeps index real id bytes :=
      opened.of_goes fits₁ (goes index) (by rw [names.openExisting]; exact opened.leads) retains
    have fits₂ := (goes index fits₁).1
    have own' := OpenFile.fits_of_none fits₂ unmapped'
    obtain ⟨_, dropped, _⟩ := f'.drop_goes s₂
    refine closed.of_goes fits₂ ((dropped.unmapped unmapped').2 index) ?_
      (OpenFile.drop_retains own' closed.retains (none unmapped') closed.not_hasStore)
    rw [(OpenFile.drop_leaves own').2.openExisting]
    exact closed.leads

theorem delete_keeps (fits : (s.gather index).Fits) (keeps : s.Keeps index real id bytes)
    (other : Path) (syncing : Bool)
    (leads : (v.delete other syncing s).2.platform.files.resolve .reach real =
      s.platform.files.resolve .reach real) :
    (v.delete other syncing s).2.Keeps index real id bytes := by
  obtain ⟨leaves, _⟩ := v.delete_leaves other syncing s
  refine keeps.of_goes fits (v.delete_goes other syncing s) ?_
    (OpenFile.retains_of_leaves keeps.retains leaves (fun none => none) fun none => none)
  rw [FileSystem.openExisting, leads]
  exact keeps.leads

end Provider

/-! ## Runs -/

namespace OpenFiles

/-- Paths other than this one that are opened lead elsewhere, and no name goes that this one needs. -/
def KeepsApart (v : Provider) (real : Path) (s : OpenFiles) (e : ProviderEvent) : Prop :=
  let stays := ∀ intent, (s.step v e).state.platform.files.resolve intent real =
    s.state.platform.files.resolve intent real
  match e with
  | .open _ path flags | .sizeOf path flags => v.OpensApart real path flags s.state.platform.files
  | .ask name request =>
    (∀ i slotSize extend f x, request = .requestSlot i slotSize extend → s.find? name = some f →
      f.index = some x → s.state.platform.files.LeadsApart real x.path) ∧
    (request = .unmapIndex true → stays)
  | .drop _ => True
  | .delete .. => stays
  | .outside _ => False

/-- What an event makes of the bytes of a path. -/
def rewrites (s : OpenFiles) (key : Path.Key) (bytes : Bytes) : ProviderEvent → Bytes
  | .ask name request =>
    match s.find? name with
    | some f => f.rewrites key s.state bytes request
    | none => bytes
  | _ => bytes

/-- What a run makes of the bytes of a path. -/
def written (v : Provider) (key : Path.Key) (s : OpenFiles) (bytes : Bytes) :
    List ProviderEvent → Bytes
  | [] => bytes
  | e :: rest => written v key (s.step v e) (s.rewrites key bytes e) rest

variable {v : Provider} {s : OpenFiles} {real : Path} {id : FileId} {bytes : Bytes} {e : ProviderEvent}

theorem drop_keeps (fits : s.openRegions.Fits) (keeps : s.state.Keeps s.index real id bytes)
    (name : String) : let s' : OpenFiles := s.drop name OpenFile.drop
      s'.state.Keeps s'.index real id bytes := by
  cases found : s.find? name with
  | none =>
    simp only [Session.drop, found]
    exact keeps
  | some f =>
    simp only [Session.drop, found]
    rw [index_forget]
    exact OpenFile.drop_keeps fits (index_of_find? found) keeps

/-- A path keeps its file, which holds what is written through the files of the path. -/
theorem step_keeps (distinct : s.Distinct) (separate : s.Separate v e) (apart : s.KeepsApart v real e)
    (keeps : s.state.Keeps s.index real id bytes) :
    (s.step v e).state.Keeps (s.step v e).index real id (s.rewrites real.key bytes e) := by
  have fits := distinct.toFits.regions
  cases e with
  | «open» name path flags =>
    rcases opening : v.openFile path flags s.state with ⟨result, st⟩
    have opened := Provider.openFile_keeps keeps apart opening
    have steps := (Provider.openFile_steps fits (Provider.Separate.apart separate) opening).1
    simp only [step, Session.enter, opening]
    cases result with
    | error e => exact opened
    | ok f =>
      have dropped := drop_keeps (s := { s with state := st }) steps.fits opened name
      have absent : Session.find? (Session.drop { s with state := st } name OpenFile.drop) name = none := by
        rw [Session.find?_drop, if_pos rfl]
      rw [index_put absent (Provider.openFile_unmapped opening)]
      exact dropped
  | ask name request =>
    cases found : s.find? name with
    | none =>
      rw [step_ask_of_none found, rewrites, found]
      exact keeps
    | some f =>
      rw [step_ask found, index_update found, rewrites, found]
      refine OpenFile.serve_keeps fits (index_of_find? found) keeps ?_ ?_
      · rintro i slotSize extend rfl ⟨x, has, _, target⟩
        exact (apart.1 i slotSize extend f x rfl found has).file _ keeps.leads target
      · intro deleted
        have stays := apart.2 deleted .reach
        rwa [step_ask found] at stays
  | drop name => exact drop_keeps fits keeps name
  | sizeOf path flags => exact Provider.sizeOf_keeps fits keeps separate apart
  | delete path syncing => exact Provider.delete_keeps fits keeps path syncing (apart .reach)
  | outside files => exact apart.elim

theorem run_keeps {events : List ProviderEvent} (distinct : s.Distinct)
    (separate : s.Follows v (Separate v) events) (apart : s.Follows v (KeepsApart v real) events)
    (keeps : s.state.Keeps s.index real id bytes) :
    (s.run v events).state.Keeps (s.run v events).index real id (s.written v real.key bytes events) := by
  induction events generalizing s bytes with
  | nil => exact keeps
  | cons e rest ih =>
    exact ih (step_distinct distinct separate.1) separate.2 apart.2
      (step_keeps distinct separate.1 apart.1 keeps)

end OpenFiles
end MappedStorage
