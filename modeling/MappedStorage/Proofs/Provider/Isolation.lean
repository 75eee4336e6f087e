import MappedStorage.Proofs.Naming.Placement
import MappedStorage.Proofs.Provider.Separation

/-!
Open files of different paths do not see each other. What is done through one leaves the regions, the
files and the locks of the other as they are (`OpenFile.Undisturbed`), and so all that the other answers
(`OpenFile.Undisturbed.sees`).
-/

namespace MappedStorage

namespace OpenFile

/-- Nothing has happened to the regions of a file, their files, and the locks of its path. -/
structure Undisturbed (g : OpenFile) (s s' : Shared) : Prop where
  region : s'.regions.find? g.path.key = s.regions.find? g.path.key
  files : ∀ id, g.HasStore s id ∨ g.HasIndex id → s.platform.Spares id s'.platform
  locks : ∀ path, g.client.path? = some path → s'.locks.locks path.key = s.locks.locks path.key

/-- Two files have no file in common, and no path. -/
structure ApartFrom (g f : OpenFile) (s : Shared) : Prop where
  store : g.path.key ≠ f.path.key
  files : ∀ id, g.HasStore s id ∨ g.HasIndex id → ¬ (f.HasStore s id ∨ f.HasIndex id)
  locks : ∀ path path', g.client.path? = some path → f.client.path? = some path' → path'.key ≠ path.key

/-- What a file answers is the same in two states. -/
structure SeesSame (g : OpenFile) (s s' : Shared) : Prop where
  reads : ∀ offset buffer, g.readInto offset buffer s' = g.readInto offset buffer s
  fetches : ∀ offset len, g.fetch? offset len s' = g.fetch? offset len s
  size : g.fileSize s' = g.fileSize s
  slots : ∀ slot, g.readSlot? slot s' = g.readSlot? slot s
  words : ∀ slot words i, g.wordsOf? slot = some words →
    words.load i s'.platform = words.load i s.platform
  reserved : g.isReserved s' = g.isReserved s
  locked : ∀ level, (g.lock level s').1 = (g.lock level s).1
  slotsLocked : ∀ offset n op, (g.lockSlots offset n op s').1 = (g.lockSlots offset n op s).1

variable {f g : OpenFile} {s s' s'' : Shared}

theorem Undisturbed.refl (g : OpenFile) (s : Shared) : g.Undisturbed s s :=
  ⟨rfl, fun _ _ => .refl .., fun _ _ => rfl⟩

theorem Undisturbed.trans (first : g.Undisturbed s s') (second : g.Undisturbed s' s'') :
    g.Undisturbed s s'' := by
  refine ⟨second.region.trans first.region, ?_, ?_⟩
  · intro id has
    refine (first.files id has).trans (second.files id ?_)
    obtain ⟨held, found, here⟩ | mapped := has
    · exact .inl ⟨held, first.region.trans found, here⟩
    · exact .inr mapped
  · intro path here
    exact (second.locks path here).trans (first.locks path here)

/-! ## What is done through another file -/

theorem undisturbed_of_leaves {keys : Path.Key → Prop} {ids : FileId → Prop}
    (leaves : s.Leaves keys ids s') (region : ¬ keys g.path.key)
    (files : ∀ id, g.HasStore s id ∨ g.HasIndex id → ¬ ids id)
    (locks : ∀ path, g.client.path? = some path → s'.locks.locks path.key = s.locks.locks path.key) :
    g.Undisturbed s s' :=
  ⟨leaves.regions _ region, fun id has => leaves.spares id (files id has), locks⟩

theorem ApartFrom.locks_eq {f' : OpenFile} (apart : g.ApartFrom f s) (stays : f.Stays s f' s')
    (path : Path) (here : g.client.path? = some path) :
    s'.locks.locks path.key = s.locks.locks path.key :=
  stays.locks.elsewhere path.key fun path' there => apart.locks path path' here there

theorem ApartFrom.serve (apart : g.ApartFrom f s) (fits : f.Fits s) (request : FileRequest)
    (unasked : ∀ i slotSize extend, request = .requestSlot i slotSize extend →
      ∀ id, g.HasStore s id ∨ g.HasIndex id → ¬ f.MayMap s id) :
    g.Undisturbed s (f.serve request s).2 := by
  refine undisturbed_of_leaves (serve_leaves fits request).1 ?_ ?_
    (apart.locks_eq (f.serve_stays request s))
  · intro moved
    cases request with
    | write offset data => exact apart.store moved
    | close => exact apart.store moved
    | _ => exact moved
  · intro id has reached
    cases request with
    | requestSlot i slotSize extend =>
      obtain mapped | may := reached
      · exact apart.files id has (.inr mapped)
      · exact unasked i slotSize extend rfl id has may
    | write offset data => exact apart.files id has (.inl reached)
    | sync flags => exact apart.files id has (.inl reached)
    | close => exact apart.files id has reached
    | fillSlot slot byte => exact apart.files id has (.inr reached)
    | storeWord slot i word => exact apart.files id has (.inr reached)
    | barrier => exact apart.files id has (.inr reached)
    | unmapIndex delete => exact apart.files id has (.inr reached)
    | truncate size => exact reached
    | lock level => exact reached
    | unlock level => exact reached
    | lockSlots offset n op => exact reached

theorem ApartFrom.drop (apart : g.ApartFrom f s) (fits : f.Fits s) : g.Undisturbed s (f.drop s) := by
  obtain ⟨f', stays⟩ := f.drop_stays s
  exact undisturbed_of_leaves (drop_leaves fits).1 apart.store apart.files (apart.locks_eq stays)

/-! ## What a file answers -/

theorem Undisturbed.region?_eq (undisturbed : g.Undisturbed s s') :
    g.store.region? s'.regions = g.store.region? s.regions := by
  rw [Store.region?, Store.region?, show g.store.path = g.path from rfl, undisturbed.region]

theorem Undisturbed.store (undisturbed : g.Undisturbed s s') {r : Region}
    (region : g.store.region? s.regions = some r) : r.Untouched s.platform s'.platform := by
  obtain ⟨_, n, found⟩ := Store.region?_eq_some_iff.mp region
  exact undisturbed.files r.fileId (.inl ⟨_, found, rfl⟩)

theorem Undisturbed.index (undisturbed : g.Undisturbed s s') {r : Region}
    (mapped : g.indexRegion? = some r) : r.Untouched s.platform s'.platform :=
  undisturbed.files r.fileId (.inr ⟨r, mapped, rfl⟩)

theorem Fits.sound (fits : g.Fits s) {r : Region} (region : g.store.region? s.regions = some r) :
    r.Sound s.platform := by
  obtain ⟨_, n, found⟩ := Store.region?_eq_some_iff.mp region
  exact fits.store _ found

/-- A file that was left alone answers as before. -/
theorem Undisturbed.sees (undisturbed : g.Undisturbed s s') (fits : g.Fits s) : g.SeesSame s s' := by
  have same := undisturbed.region?_eq
  constructor
  case reads =>
    intro offset buffer
    rw [readInto, readInto]
    cases region : g.store.region? s.regions with
    | none => simp only [Store.readInto, same, region]
    | some r =>
      have untouched := undisturbed.store region
      have sound := fits.sound region
      rw [Store.readInto_correct (same.trans region) (untouched.sound sound),
        Store.readInto_correct region sound, untouched.validBytes sound]
  case fetches =>
    intro offset len
    rw [fetch?, fetch?]
    cases region : g.store.region? s.regions with
    | none => simp only [Store.fetch?, same, region]
    | some r =>
      have untouched := undisturbed.store region
      have sound := fits.sound region
      rw [Store.fetch?_correct (same.trans region) (untouched.sound sound),
        Store.fetch?_correct region sound, untouched.validBytes sound]
  case size => rw [fileSize, fileSize, Store.fileSize, Store.fileSize, same]
  case slots =>
    intro slot
    rw [readSlot?, readSlot?]
    cases has : g.index with
    | none => rfl
    | some x =>
      rw [Option.bind_some, Option.bind_some, SharedIndex.readSlot?, SharedIndex.readSlot?]
      cases region : x.region? with
      | none => rfl
      | some r =>
        have mapped : g.indexRegion? = some r := by rw [indexRegion?, has, Option.bind_some, region]
        exact (undisturbed.index mapped).bytes?_eq (fits.index r mapped).shows slot.span
  case words =>
    intro slot words i viewed
    obtain ⟨x, has, viewed⟩ := Option.bind_eq_some_iff.mp viewed
    obtain ⟨r, region, _⟩ := Option.bind_eq_some_iff.mp viewed
    have mapped : g.indexRegion? = some r := by rw [indexRegion?, has, Option.bind_some, region]
    have file := SharedIndex.file_of_wordsOf? region (fits.index r mapped).shows viewed
    simp only [WordView.load, Platform.load, file, (undisturbed.index mapped).file]
  case reserved => exact LockClient.isReserved_congr undisturbed.locks
  case locked => exact fun level => LockClient.lock_congr undisturbed.locks level
  case slotsLocked => exact fun offset n op => LockClient.lockSlots_congr undisturbed.locks offset n op

/-- The paths of a file are among some. -/
structure Within (f : OpenFile) (keys : List Path.Key) : Prop where
  store : f.path.key ∈ keys
  index : ∀ x, f.index = some x → x.path.key ∈ keys
  locks : ∀ path, f.client.path? = some path → path.key ∈ keys

theorem within_iff {keys : List Path.Key} : f.Within keys ↔ f.path.key ∈ keys ∧
    (∀ x ∈ f.index, x.path.key ∈ keys) ∧ ∀ path ∈ f.client.path?, path.key ∈ keys :=
  ⟨fun within => ⟨within.store, within.index, within.locks⟩, fun within => ⟨within.1, within.2.1, within.2.2⟩⟩

instance (keys : List Path.Key) : Decidable (f.Within keys) := decidable_of_iff _ within_iff.symm

/-- Files of different paths are apart, since a store shares its file with no other region. -/
theorem apartFrom_of_fits {index : String → Option Region} {name other : String}
    (fits : (s.gather index).Fits) (here : index name = g.indexRegion?)
    (there : f.indexRegion? = none ∨ index other = f.indexRegion?) (store : g.path.key ≠ f.path.key)
    (indexes : ∀ id, g.HasIndex id → ¬ f.HasIndex id)
    (locks : ∀ path path', g.client.path? = some path → f.client.path? = some path' →
      path'.key ≠ path.key) : g.ApartFrom f s := by
  refine ⟨store, ?_, locks⟩
  have mapped {r : Region} (has : f.indexRegion? = some r) : (s.gather index).region? (.index other) =
      some r := by
    obtain absent | same := there
    · rw [absent] at has
      cases has
    · exact same.trans has
  rintro id (⟨held, found, rfl⟩ | ⟨r, has, rfl⟩) (⟨held', found', same⟩ | ⟨r', has', same⟩)
  · exact fits.apart f.path.key (.store g.path.key) held'.region held.region
      (RegionTable.gather_store_of_find? found') (RegionTable.gather_store_of_find? found)
      (fun equal => store (Site.store.inj equal)) same.symm
  · exact fits.apart g.path.key (.index other) held.region r'
      (RegionTable.gather_store_of_find? found) (mapped has') nofun same
  · exact fits.apart f.path.key (.index name) held'.region r
      (RegionTable.gather_store_of_find? found') (here.trans has) nofun same.symm
  · exact indexes r.fileId ⟨r, has, rfl⟩ ⟨r', has', same⟩

end OpenFile

namespace OpenFiles

/-- An event concerns files of some paths only. -/
def Concerns (v : Provider) (keys : List Path.Key) (s : OpenFiles) : ProviderEvent → Prop
  | .open name path flags =>
    (∀ named, path = some named → (v.resolve named flags.kind).key ∈ keys) ∧
      ∀ f, s.find? name = some f → f.Within keys
  | .sizeOf path flags => ∀ named, path = some named → (v.resolve named flags.kind).key ∈ keys
  | .ask name _ | .drop name => ∀ f, s.find? name = some f → f.Within keys
  | .delete .. => True
  | .outside _ => False

variable {v : Provider} {s : OpenFiles} {st : Shared} {name other : String} {f g : OpenFile}
  {keys keys' : List Path.Key}

theorem within_of_find? (among : ((s.find? name).all fun f => decide (f.Within keys)) = true) :
    ∀ f, s.find? name = some f → f.Within keys := by
  intro f found
  rw [found, Option.all_some] at among
  exact of_decide_eq_true among

/-- Files of different paths are apart, whatever has been opened since. -/
theorem Distinct.apartFrom (distinct : s.Distinct) (fits : (st.gather s.index).Fits)
    (found : s.find? name = some g) (asked : s.find? other = some f) (within : g.Within keys')
    (concerned : f.Within keys) (disjoint : keys.Disjoint keys') : g.ApartFrom f st := by
  refine OpenFile.apartFrom_of_fits fits (index_of_find? found) (.inr (index_of_find? asked)) ?_ ?_ ?_
  · intro same
    exact disjoint concerned.store (same ▸ within.store)
  · rintro id ⟨r, mapped, here⟩ ⟨r', mapped', here'⟩
    obtain ⟨x, has, region⟩ := Option.bind_eq_some_iff.mp mapped
    obtain ⟨x', has', region'⟩ := Option.bind_eq_some_iff.mp mapped'
    have same := distinct.indexes x.path.key x'.path.key id ⟨name, g, x, r, found, has, region, rfl, here⟩
      ⟨other, f, x', r', asked, has', region', rfl, here'⟩
    exact disjoint (concerned.index x' has') (same ▸ within.index x has)
  · intro path path' here there same
    exact disjoint (concerned.locks path' there) (same ▸ within.locks path here)

/-- A file that is concerned has another name. -/
theorem ne_of_within (found : s.find? name = some g) (within : g.Within keys')
    (concerns : ∀ f, s.find? other = some f → f.Within keys) (disjoint : keys.Disjoint keys') :
    name ≠ other := by
  rintro rfl
  exact disjoint (concerns g found).store within.store

theorem openFile_undisturbed {path : Option Path} {flags : OpenFlags}
    {result : Except ProviderError OpenFile} (found : s.find? name = some g) (within : g.Within keys')
    (separate : v.Separate s.state s.index path flags)
    (concerns : ∀ named, path = some named → (v.resolve named flags.kind).key ∈ keys)
    (disjoint : keys.Disjoint keys') (opened : v.openFile path flags s.state = (result, st)) :
    g.Undisturbed s.state st := by
  obtain ⟨leaves, _, locks⟩ := Provider.openFile_leaves opened
  refine OpenFile.undisturbed_of_leaves leaves ?_ ?_ fun path _ => locks path.key
  · rintro ⟨named, leads, same⟩
    exact disjoint (concerns named leads) (same ▸ within.store)
  · rintro id has ⟨named, leads, absent, target⟩
    have separate := separate named leads absent
    obtain ⟨held, there, rfl⟩ | ⟨r, mapped, rfl⟩ := has
    · exact separate (.store g.path.key) held.region (RegionTable.gather_store_of_find? there) target
    · exact separate (.index name) r ((index_of_find? found).trans mapped) target

theorem drop_undisturbed (distinct : s.Distinct) (fits : (st.gather s.index).Fits)
    (found : s.find? name = some g) (within : g.Within keys')
    (concerns : ∀ f, s.find? other = some f → f.Within keys) (disjoint : keys.Disjoint keys') :
    g.Undisturbed st (Session.drop { s with state := st } other OpenFile.drop).state := by
  cases dropped : s.find? other with
  | none =>
    have absent : Session.find? { s with state := st } other = none := dropped
    simp only [Session.drop, absent]
    exact .refl ..
  | some f =>
    have there : Session.find? { s with state := st } other = some f := dropped
    simp only [Session.drop, there]
    exact (distinct.apartFrom fits found dropped within (concerns f dropped) disjoint).drop
      (OpenFile.fits_of_gather fits (index_of_find? dropped))

/-- The size of a file is asked for: the file is opened, closed and dropped. -/
theorem sizeOf_undisturbed {path : Option Path} {flags : OpenFlags} (fits : s.Fits)
    (found : s.find? name = some g) (within : g.Within keys')
    (separate : v.Separate s.state s.index path flags)
    (concerns : ∀ named, path = some named → (v.resolve named flags.kind).key ∈ keys)
    (disjoint : keys.Disjoint keys') : g.Undisturbed s.state (v.sizeOf path flags s.state).2 := by
  rcases asked : v.sizeOf path flags s.state with ⟨_, st⟩
  cases Provider.sizeOf_sized asked with
  | failed opening => exact openFile_undisturbed found within separate concerns disjoint opening
  | @sized f f' s₁ s₂ opening closing =>
    have first := openFile_undisturbed found within separate concerns disjoint opening
    have fits₁ := (Provider.openFile_steps fits.regions separate.apart opening).1.fits
    obtain ⟨named, leads, store, _, locks⟩ := Provider.openFile_file opening
    have unmapped := Provider.openFile_unmapped opening
    have member := concerns named leads
    -- The file that was opened has a path that concerns others, before and after it is closed.
    have apart {f' : OpenFile} {st : Shared} (fits' : (st.gather s.index).Fits)
        (gone : f'.indexRegion? = none) (path : f'.path = f.path)
        (client : f'.client.path? = f.client.path?) : g.ApartFrom f' st := by
      have unindexed : f'.indexRegion? = none ∨ s.index name = f'.indexRegion? := .inl gone
      refine OpenFile.apartFrom_of_fits fits' (index_of_find? found) unindexed ?_ ?_ ?_
      · rw [path, store]
        exact fun same => disjoint member (same ▸ within.store)
      · rintro id _ ⟨r, mapped, _⟩
        rw [gone] at mapped
        cases mapped
      · intro path path' here there same
        rw [client] at there
        rw [locks path' there] at same
        exact disjoint member (same ▸ within.locks path here)
    have goes := f.close_goes s₁
    have stays := f.close_stays s₁
    have second := (apart fits₁ unmapped rfl rfl).serve (OpenFile.fits_of_none fits₁ unmapped) .close nofun
    rw [OpenFile.serve, closing] at second
    rw [closing] at goes stays
    obtain ⟨gone, goes⟩ := goes.unmapped unmapped
    have fits₂ := (goes s.index fits₁).1
    have third := (apart fits₂ gone stays.path stays.locks.path).drop
      (OpenFile.fits_of_none fits₂ gone)
    exact first.trans (second.trans third)

/-- What concerns other paths leaves a file where it is, and undisturbed. -/
theorem step_undisturbed {e : ProviderEvent} (distinct : s.Distinct) (separate : s.Separate v e)
    (concerns : s.Concerns v keys e) (disjoint : keys.Disjoint keys')
    (found : s.find? name = some g) (within : g.Within keys') :
    (s.step v e).find? name = some g ∧ g.Undisturbed s.state (s.step v e).state := by
  have fits := distinct.toFits
  cases e with
  | «open» other path flags =>
    obtain ⟨opens, replaces⟩ := concerns
    have different := ne_of_within found within replaces disjoint
    rcases opening : v.openFile path flags s.state with ⟨result, st⟩
    have first := openFile_undisturbed found within separate opens disjoint opening
    have steps := (Provider.openFile_steps fits.regions (Provider.Separate.apart separate) opening).1
    simp only [step, Session.enter, opening]
    cases result with
    | error e => exact ⟨found, first⟩
    | ok f =>
      refine ⟨?_, first.trans (drop_undisturbed distinct steps.fits found within replaces disjoint)⟩
      rw [Session.find?_put, if_neg different, Session.find?_drop, if_neg different]
      exact found
  | ask other request =>
    have different := ne_of_within found within concerns disjoint
    cases asked : s.find? other with
    | none =>
      rw [step_ask_of_none asked]
      exact ⟨found, .refl ..⟩
    | some f =>
      rw [step_ask asked]
      have apart := distinct.apartFrom fits.regions found asked within (concerns f asked) disjoint
      refine ⟨(Session.find?_update asked _).trans ((if_neg different).trans found), ?_⟩
      refine apart.serve (OpenFile.fits_of_gather fits.regions (index_of_find? asked)) request ?_
      rintro i slotSize extend rfl id has ⟨x, indexed, absent, target⟩
      obtain ⟨stores, indexes⟩ := separate i slotSize extend f x rfl asked indexed absent
      obtain ⟨held, there, rfl⟩ | mapped := has
      · exact stores g.path.key held.region (RegionTable.gather_store_of_find? there) target
      · obtain ⟨r, region, here⟩ := mapped
        obtain ⟨y, has, region⟩ := Option.bind_eq_some_iff.mp region
        refine indexes y.path.key id ⟨name, g, y, r, found, has, region, rfl, here⟩ ?_ target
        intro same
        exact disjoint ((concerns f asked).index x indexed) (same ▸ within.index y has)
  | drop other =>
    have different := ne_of_within found within concerns disjoint
    exact ⟨(Session.find?_drop s other OpenFile.drop name).trans ((if_neg different).trans found),
      drop_undisturbed distinct fits.regions found within concerns disjoint⟩
  | sizeOf path flags => exact ⟨found, sizeOf_undisturbed fits found within separate concerns disjoint⟩
  | delete path syncing =>
    obtain ⟨leaves, locks⟩ := v.delete_leaves path syncing s.state
    refine ⟨found, OpenFile.undisturbed_of_leaves leaves (fun none => none) (fun _ _ none => none) ?_⟩
    exact fun path _ => congrArg (·.locks path.key) locks
  | outside files => exact concerns.elim

theorem run_undisturbed {events : List ProviderEvent} (distinct : s.Distinct)
    (separate : s.Follows v (Separate v) events) (concerns : s.Follows v (Concerns v keys) events)
    (disjoint : keys.Disjoint keys') (found : s.find? name = some g) (within : g.Within keys') :
    (s.run v events).find? name = some g ∧ g.Undisturbed s.state (s.run v events).state := by
  induction events generalizing s with
  | nil => exact ⟨found, .refl ..⟩
  | cons e rest ih =>
    obtain ⟨found', first⟩ := step_undisturbed distinct separate.1 concerns.1 disjoint found within
    obtain ⟨last, later⟩ := ih (step_distinct distinct separate.1) separate.2 concerns.2 found'
    exact ⟨last, first.trans later⟩

/-- A file that is opened for a database, or for its log, has paths of the database only. -/
theorem openFile_within {db : Path} {path : Option Path} {flags : OpenFlags} {s s' : Shared}
    {f : OpenFile} (asked : path = some db ∧ flags.kind = .mainDb ∨
      path = some (Placement.logPath db) ∧ flags.kind = .wal)
    (opened : v.openFile path flags s = (.ok f, s')) : f.Within (v.filesOf db) := by
  obtain ⟨named, leads, store, index, locks⟩ := Provider.openFile_file opened
  have member : (v.resolve named flags.kind).key ∈ v.filesOf db := by
    obtain ⟨rfl, kind⟩ | ⟨rfl, kind⟩ := asked
    · cases leads
      rw [kind]
      exact List.mem_cons_self
    · cases leads
      rw [kind]
      exact List.mem_cons_of_mem _ List.mem_cons_self
  refine ⟨store ▸ member, ?_, fun path here => locks path here ▸ member⟩
  intro x has
  obtain ⟨kind, path_eq⟩ := index x has
  obtain ⟨rfl, _⟩ | ⟨_, other⟩ := asked
  · cases leads
    rw [path_eq]
    exact List.mem_cons_of_mem _ (List.mem_cons_of_mem _ List.mem_cons_self)
  · rw [kind] at other
    cases other

/-- Different databases have no file in common, unless a directory takes their logs and indexes and they
have one name. Where they have none in common, and paths lead to files of their own, whatever is done to
the files of the one is not seen by an open file of the other. -/
theorem run_isolated (v : Provider) {p q : Path} {name name' : Name}
    (database : Placement.IsDatabase p name) (database' : Placement.IsDatabase q name')
    (different : p ≠ q) (platform : Platform) (tidy : platform.files.Tidy)
    (before after : List ProviderEvent)
    (separate : (start platform).Follows v (Separate v) (before ++ after)) :
    let s := (start platform).run v before
    ((v.filesOf p).Disjoint (v.filesOf q) ↔ v.settings.directory = none ∨ name ≠ name') ∧
      ((v.filesOf p).Disjoint (v.filesOf q) → s.Follows v (Concerns v (v.filesOf p)) after →
        ∀ called g, s.find? called = some g → g.Within (v.filesOf q) →
          (s.run v after).find? called = some g ∧ g.SeesSame s.state (s.run v after).state) := by
  intro s
  obtain ⟨separate_before, separate_after⟩ := follows_append separate
  have distinct : s.Distinct :=
    run_induction (fun _ _ => step_distinct) separate_before (start_distinct tidy)
  refine ⟨Provider.filesOf_disjoint_iff database database' different, ?_⟩
  intro disjoint concerns called g found within
  obtain ⟨found', undisturbed⟩ :=
    run_undisturbed distinct separate_after concerns disjoint found within
  exact ⟨found', undisturbed.sees
    (OpenFile.fits_of_gather distinct.toFits.regions (index_of_find? found))⟩

/-- For instance two databases in one directory, one of which is read while the other, its index and its
log are written. -/
theorem other_database_unseen :
    let p : Path := .ofNames [[0x78]]
    let q : Path := .ofNames [[0x79]]
    let v : Provider := { settings := { initialCapacity := 4, indexBaseSize := 8 }, mapper := {} }
    let before : List ProviderEvent := [.open "q" (some q) { kind := .mainDb },
      .ask "q" (.write 0 #[1]), .open "p" (some p) { kind := .mainDb }]
    let after : List ProviderEvent := [.ask "p" (.write 0 #[2, 3]), .ask "p" (.requestSlot 0 8 true),
      .open "log" (some (Placement.logPath p)) { kind := .wal }, .ask "log" (.write 0 #[4])]
    let s := (start .empty).run v before
    (v.filesOf p).Disjoint (v.filesOf q) ∧ ∃ g, s.find? "q" = some g ∧
      (g.fileSize s.state).toOption = some 1 ∧ g.SeesSame s.state (s.run v after).state := by
  intro p q v before after s
  have database : Placement.IsDatabase p [0x78] :=
    ⟨Path.isNormal_ofNames (by decide), by decide, by decide, by decide⟩
  have database' : Placement.IsDatabase q [0x79] :=
    ⟨Path.isNormal_ofNames (by decide), by decide, by decide, by decide⟩
  have separate : (start .empty).Follows v (Separate v) (before ++ after) := by
    refine ⟨separate_open (noneAt_of_all ?_ ?_), separate_ask nofun, separate_open (noneAt_of_all ?_ ?_),
      separate_ask nofun,
      separate_requestSlot (p.append Placement.indexSuffix) ?_ (noneAt_of_all ?_ ?_),
      separate_open (noneAt_of_all ?_ ?_), separate_ask nofun, trivial⟩
    all_goals
      dsimp +zetaDelta only
      cbv
  have concerns : s.Follows v (Concerns v (v.filesOf p)) after := by
    refine ⟨within_of_find? ?_, within_of_find? ?_, ⟨?_, within_of_find? ?_⟩, within_of_find? ?_, trivial⟩
    case refine_3 =>
      rintro _ ⟨⟩
      exact List.mem_cons_of_mem _ List.mem_cons_self
    all_goals
      dsimp +zetaDelta only
      cbv
  have isolated := run_isolated v database database' (by decide) .empty FileSystem.tidy_empty before after
    separate
  have disjoint := isolated.1.mpr (.inl rfl)
  have size : ((s.find? "q").bind fun g => (g.fileSize s.state).toOption) = some 1 := by
    dsimp +zetaDelta only
    cbv
  have within : ∀ g, s.find? "q" = some g → g.Within (v.filesOf q) := by
    refine within_of_find? ?_
    dsimp +zetaDelta only
    cbv
  obtain ⟨g, found, size⟩ := Option.bind_eq_some_iff.mp size
  exact ⟨disjoint, g, found, size, (isolated.2 disjoint concerns "q" g found (within g found)).2⟩

/-- The logs of two databases of one name are one file in the directory for logs. Without a directory a
link can still make the log of the one that of the other. -/
theorem logs_shared :
    (let p : Path := .ofNames [[0x61], [0x78]]
      let q : Path := .ofNames [[0x62], [0x78]]
      let v : Provider := { settings := { directory := some ⟨[0x2F]⟩, initialCapacity := 4 }, mapper := {} }
      let s := (start .empty).run v [.open "p" (some (Placement.logPath p)) { kind := .wal },
        .open "q" (some (Placement.logPath q)) { kind := .wal }]
      let s' := s.step v (.ask "p" (.write 0 #[1]))
      (p.IsNormal ∧ q.IsNormal ∧ p ≠ q) ∧ ¬ (v.filesOf p).Disjoint (v.filesOf q) ∧
        ((s.find? "q").bind fun g => (g.fileSize s.state).toOption) = some 0 ∧
        ((s'.find? "q").bind fun g => (g.fileSize s'.state).toOption) = some 1) ∧
    (let p : Path := .ofNames [[0x78]]
      let q : Path := .ofNames [[0x79]]
      let v : Provider := { settings := { initialCapacity := 4 }, mapper := {} }
      let files := (FileSystem.empty.makeLink (Placement.logPath p) (Placement.logPath q)).toOption.getD .empty
      let s := (start { files }).run v [.open "p" (some (Placement.logPath p)) { kind := .wal },
        .open "q" (some (Placement.logPath q)) { kind := .wal }, .ask "q" (.write 0 #[2])]
      let s' := s.step v (.ask "p" (.write 0 #[1]))
      (v.filesOf p).Disjoint (v.filesOf q) ∧
        ((s.find? "q").map fun g => (g.readInto 0 #[0] s.state).2) = some #[2] ∧
        ((s'.find? "q").map fun g => (g.readInto 0 #[0] s'.state).2) = some #[1]) := by
  refine ⟨⟨⟨Path.isNormal_ofNames (by decide), Path.isNormal_ofNames (by decide), by decide⟩,
    ?_, ?_, ?_⟩, ?_, ?_, ?_⟩
  · intro disjoint
    exact disjoint (List.mem_cons_of_mem _ List.mem_cons_self) (List.mem_cons_of_mem _ List.mem_cons_self)
  · cbv
  · cbv
  · have database : Placement.IsDatabase (.ofNames [[0x78]]) [0x78] :=
      ⟨Path.isNormal_ofNames (by decide), by decide, by decide, by decide⟩
    have database' : Placement.IsDatabase (.ofNames [[0x79]]) [0x79] :=
      ⟨Path.isNormal_ofNames (by decide), by decide, by decide, by decide⟩
    exact (Provider.filesOf_disjoint_iff database database' (by decide)).mpr (.inl rfl)
  · cbv
  · cbv

end OpenFiles
end MappedStorage
