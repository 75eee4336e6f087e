import Mathlib
import MappedStorage.Proofs.Provider.OpenFile

/-!
Runs of a provider keep every region within its file. As long as the file of a store is opened by one
path only and as no shared index, and others make no file shorter, each region that is open ends within
its file, and none gets smaller while it stays open (`OpenFiles.run_within_files`).
-/

namespace MappedStorage

/-- The used bytes of a region end within it, it ends within its file, and so does what it has mapped. -/
structure Region.WithinFile (r : Region) (p : Platform) : Prop where
  used_le : r.used ≤ r.capacity
  capacity_le : r.capacity ≤ (p.files.file r.file.handle.file).size
  mapped : ∀ m, r.mapped = some m → m.file = r.file.handle.file ∧ m.len ≤ (p.files.file m.file).size

theorem Region.Sound.withinFile {r : Region} {p : Platform} (sound : r.Sound p) : r.WithinFile p := by
  refine ⟨sound.used_le, sound.capacity_le, ?_⟩
  intro m mapped
  have file : m.file = r.fileId := sound.shows m mapped
  refine ⟨file, ?_⟩
  rw [file, ← capacity_eq_of_mapped mapped]
  exact sound.capacity_le

namespace OpenFiles

/-- The regions of the shared indexes by the names of their files. -/
def index (s : OpenFiles) (name : String) : Option Region := (s.find? name).bind (·.indexRegion?)

/-- The regions that are open. -/
def openRegions (s : OpenFiles) : OpenRegions := s.state.gather s.index

/-- The file of a store is opened by one path only and as no index, and others shorten no file. -/
def Apart (v : Provider) (s : OpenFiles) : ProviderEvent → Prop
  | .open _ path flags | .sizeOf path flags => v.Apart s.state s.index path flags
  | .ask name request => ∀ f, s.find? name = some f → f.Apart s.openRegions request
  | .outside files => s.state.platform.files.Lengthens files
  | .drop _ | .delete .. => True

/-- The region at a site is open after each event. -/
def StaysOpen (v : Provider) (site : Site) (s : OpenFiles) : List ProviderEvent → Prop
  | [] => True
  | e :: rest => (s.step v e).openRegions.region? site ≠ none ∧ StaysOpen v site (s.step v e) rest

/-- The regions fit their files, and no index will be trimmed. -/
structure Fits (s : OpenFiles) : Prop where
  regions : s.openRegions.Fits
  untrimmed : ∀ name f, s.find? name = some f → f.Untrimmed

variable {v : Provider} {s : OpenFiles} {name : String} {f f' : OpenFile} {st : Shared}

theorem index_update (found : s.find? name = some f) (f' : OpenFile) :
    index ⟨(s.update name f').objects, st⟩ = Function.update s.index name f'.indexRegion? := by
  funext other
  have there : (s.update name f').objects.find? other =
    if other = name then some f' else s.find? other := Session.find?_update found f'
  simp only [index, Session.find?, there, Function.update_apply]
  split
  · rfl
  · rfl

theorem index_forget (s : OpenFiles) (name : String) :
    index ⟨(s.forget name).objects, st⟩ = Function.update s.index name none := by
  funext other
  have there : (s.forget name).objects.find? other =
    if other = name then none else s.find? other := s.find?_forget name other
  simp only [index, Session.find?, there, Function.update_apply]
  split
  · rfl
  · rfl

theorem index_of_find? (found : s.find? name = some f) : s.index name = f.indexRegion? := by
  rw [index, found, Option.bind_some]

/-- A file whose index is not mapped adds no region where it is put. -/
theorem index_put (absent : s.find? name = none) (new : f.indexRegion? = none) :
    index (s.put name f) = s.index := by
  funext other
  rw [index, Session.find?_put]
  split
  · rename_i here
    rw [here, index, absent, Option.bind_some, new, Option.bind_none]
  · rfl

/-! ## Steps -/

theorem drop_goes (s : OpenFiles) (name : String) :
    s.openRegions.Goes (openRegions (s.drop name OpenFile.drop)) := by
  cases found : s.find? name with
  | none =>
    rw [Session.drop, found]
    exact .refl _
  | some f =>
    obtain ⟨f', goes, gone⟩ := f.drop_goes s.state
    have goes := goes.goes s.index name (index_of_find? found)
    simp only [Session.drop, found]
    rw [openRegions, openRegions, index_forget, ← gone]
    exact goes

theorem drop_untrimmed (untrimmed : ∀ other f, s.find? other = some f → f.Untrimmed)
    (name other : String) (found : Session.find? (s.drop name OpenFile.drop) other = some f) :
    f.Untrimmed := by
  rw [Session.find?_drop] at found
  split at found
  · cases found
  · exact untrimmed other f found

/-- The regions that are open before and after an event are no smaller, and all still fit. -/
theorem step_steps {e : ProviderEvent} (fits : s.Fits) (apart : s.Apart v e) :
    (∀ name f, (s.step v e).find? name = some f → f.Untrimmed) ∧
      s.openRegions.Steps (s.step v e).openRegions := by
  cases e with
  | «open» name path flags =>
    rcases opening : v.openFile path flags s.state with ⟨result, st⟩
    obtain ⟨steps, new⟩ := Provider.openFile_steps fits.regions apart opening
    simp only [step, Session.enter, opening]
    cases result with
    | error e => exact ⟨fits.untrimmed, steps⟩
    | ok f =>
      -- The file that had the name is dropped once the new one is there, which has no index yet.
      obtain ⟨unmapped, untrimmed⟩ := new f rfl
      have dropped := drop_goes { s with state := st } name
      have absent : Session.find? (Session.drop { s with state := st } name OpenFile.drop) name = none := by
        rw [Session.find?_drop, if_pos rfl]
      constructor
      · intro other g found
        rw [Session.find?_put] at found
        split at found
        · cases found
          exact untrimmed
        · exact drop_untrimmed (s := { s with state := st }) fits.untrimmed name other found
      · rw [openRegions, openRegions, index_put absent unmapped]
        exact steps.goes dropped
  | ask name request =>
    cases found : s.find? name with
    | none =>
      rw [step_ask_of_none found]
      exact ⟨fits.untrimmed, (OpenRegions.Goes.refl _).steps fits.regions⟩
    | some f =>
      obtain ⟨untrimmed, steps⟩ := OpenFile.serve_steps fits.regions (index_of_find? found)
        (fits.untrimmed name f found) (apart f found) rfl
      rw [step_ask found]
      constructor
      · intro other g there
        have changed : (if other = name then some (f.serve request s.state).1 else s.find? other) =
          some g := (Session.find?_update found _).symm.trans there
        split at changed
        · cases changed
          exact untrimmed
        · exact fits.untrimmed other g changed
      · rw [openRegions, openRegions, index_update found]
        exact steps
  | drop name =>
    exact ⟨fun other f => drop_untrimmed fits.untrimmed name other,
      (s.drop_goes name).steps fits.regions⟩
  | sizeOf path flags => exact ⟨fits.untrimmed, Provider.sizeOf_steps fits.regions apart⟩
  | delete path syncing =>
    exact ⟨fits.untrimmed, (v.delete_goes path syncing s.state).steps fits.regions⟩
  | outside files =>
    have longer : s.state.platform.files.Lengthens files := apart
    have goes : s.openRegions.Goes (s.step v (.outside files)).openRegions :=
      OpenRegions.goes_files fun _ => longer
    exact ⟨fits.untrimmed, goes.steps fits.regions⟩

theorem step_fits {e : ProviderEvent} (fits : s.Fits) (apart : s.Apart v e) : (s.step v e).Fits := by
  obtain ⟨untrimmed, steps⟩ := step_steps fits apart
  exact ⟨steps.fits, untrimmed⟩

/-! ## Runs -/

theorem start_fits {p : Platform} (tidy : p.files.Tidy) : (start p).Fits := by
  have nothing (site : Site) : (start p).openRegions.region? site = none := by
    cases site <;> rfl
  refine ⟨⟨tidy, ?_, ?_, ?_, ?_⟩, fun _ _ found => by cases found⟩
  · intro site r found
    rw [nothing] at found
    cases found
  · intro site r found
    rw [nothing] at found
    cases found
  · intro key site r r' found
    rw [nothing] at found
    cases found
  · intro name r found
    rw [nothing] at found
    cases found

theorem run_later {site : Site} {r : Region} {events : List ProviderEvent} (fits : s.Fits)
    (apart : s.Follows v (Apart v) events) (stays : s.StaysOpen v site events)
    (found : s.openRegions.region? site = some r) :
    ∃ r', (s.run v events).openRegions.region? site = some r' ∧ r.Later r' := by
  induction events generalizing s r with
  | nil => exact ⟨r, found, .refl r⟩
  | cons e rest ih =>
    obtain ⟨next, there⟩ := Option.ne_none_iff_exists'.mp stays.1
    have later := (step_steps fits apart.1).2.later site r next found there
    obtain ⟨r', found', later'⟩ := ih (step_fits fits apart.1) apart.2 stays.2 there
    exact ⟨r', found', later.trans later'⟩

/-- A file may be opened again while it is open. -/
theorem apart_open {path : Path} {flags : OpenFlags}
    (present : (s.state.regions.find? (v.resolve path flags.kind).key).isSome = true) :
    s.Apart v (.open name (some path) flags) := by
  rintro _ ⟨⟩ _ real absent
  exact absurd absent (Option.isSome_iff_ne_none.mp present)

/-- A file may be asked for a slot if its index is not the file of a store. -/
theorem apart_requestSlot (path : Path) (named : ((s.find? name).bind (·.index)).map (·.path) = some path)
    (separate : (s.state.regions.entries.all fun e =>
      s.state.platform.files.target? path != some e.2.region.fileId) = true)
    {i slotSize : Nat} {extend : Bool} : s.Apart v (.ask name (.requestSlot i slotSize extend)) := by
  intro f found x has _ _ key r there
  rw [found, Option.bind_some, has, Option.map_some] at named
  obtain rfl := Option.some.inj named
  obtain ⟨held, held_found, rfl⟩ := Option.map_eq_some_iff.mp there
  exact bne_iff_ne.mp (List.all_eq_true.mp separate (key, held) (Keyed.mem_entries_iff.mpr held_found))

/-- At any time in a run a region that is open is within its file, and while it stays open it gets no
smaller. -/
theorem run_within_files (v : Provider) (p : Platform) (tidy : p.files.Tidy)
    (before after : List ProviderEvent)
    (apart : (start p).Follows v (Apart v) (before ++ after)) (site : Site) (r : Region)
    (found : ((start p).run v before).openRegions.region? site = some r) :
    let s := (start p).run v before
    r.WithinFile s.state.platform ∧ (s.StaysOpen v site after →
      ∃ r', (s.run v after).openRegions.region? site = some r' ∧ r.Later r') := by
  intro s
  obtain ⟨apart_before, apart_after⟩ := follows_append apart
  have fits : s.Fits := run_induction (fun _ _ => step_fits) apart_before (start_fits tidy)
  refine ⟨(fits.regions.sound site r found).withinFile, ?_⟩
  intro stays
  exact run_later fits apart_after stays found

/-- For instance the shared index of two files, which is made longer for one and then for the other. -/
theorem shared_index_within_file :
    let path : Path := ⟨[0x78]⟩
    let v : Provider := { settings := { initialCapacity := 4, indexBaseSize := 8 }, mapper := {} }
    let before : List ProviderEvent := [.open "a" (some path) { kind := .mainDb },
      .open "b" (some path) { kind := .mainDb }, .ask "a" (.requestSlot 0 8 true)]
    let after : List ProviderEvent :=
      [.ask "b" (.requestSlot 3 8 true), .ask "a" (.requestSlot 1 8 true)]
    ∃ r r', ((start .empty).run v before).openRegions.region? (.index "a") = some r ∧
      (((start .empty).run v before).run v after).openRegions.region? (.index "a") = some r' ∧
      r.WithinFile ((start .empty).run v before).state.platform ∧ r.Later r' ∧
      r.capacity = 8 ∧ r'.capacity = 16 := by
  intro path v before after
  have apart : (start .empty).Follows v (Apart v) (before ++ after) := by
    refine ⟨?_, apart_open ?_, apart_requestSlot (path.append Placement.indexSuffix) ?_ ?_,
      apart_requestSlot (path.append Placement.indexSuffix) ?_ ?_,
      apart_requestSlot (path.append Placement.indexSuffix) ?_ ?_, trivial⟩
    · intro named _ _ real _ site r there
      cases site <;> cases there
    all_goals
      dsimp +zetaDelta only
      cbv
  have stays : ((start .empty).run v before).StaysOpen v (.index "a") after := by
    refine ⟨Option.isSome_iff_ne_none.mp ?_, Option.isSome_iff_ne_none.mp ?_, trivial⟩
    all_goals
      dsimp +zetaDelta only
      cbv
  have small : (((start .empty).run v before).openRegions.region? (.index "a")).map (·.capacity) =
      some 8 := by
    dsimp +zetaDelta only
    cbv
  have large : ((((start .empty).run v before).run v after).openRegions.region? (.index "a")).map
      (·.capacity) = some 16 := by
    dsimp +zetaDelta only
    cbv
  obtain ⟨r, found, small⟩ := Option.map_eq_some_iff.mp small
  have within := run_within_files v .empty FileSystem.tidy_empty before after apart (.index "a") r found
  obtain ⟨r', found', later⟩ := within.2 stays
  rw [found', Option.map_some] at large
  exact ⟨r, r', found, found', within.1, later, small, Option.some.inj large⟩

end OpenFiles
end MappedStorage
