import MappedStorage.Proofs.Provider.Extent
import MappedStorage.Proofs.Provider.Frame

/-!
Files that are reached by one path only. As long as no path that is opened leads to the file of a region of
another path (`OpenFiles.Separate`), regions of different paths are over different files
(`OpenFiles.step_distinct`).
-/

namespace MappedStorage

open OpenRegions

namespace Provider

/-- A file is opened by a path that has a region already, or leads to the file of no region. -/
def Separate (v : Provider) (s : Shared) (index : String → Option Region) (path : Option Path)
    (flags : OpenFlags) : Prop :=
  ∀ named, path = some named → s.regions.find? (v.resolve named flags.kind).key = none →
    (s.gather index).NoneAt (v.resolve named flags.kind)

theorem Separate.apart {v : Provider} {s : Shared} {index : String → Option Region}
    {path : Option Path} {flags : OpenFlags} (separate : v.Separate s index path flags) :
    v.Apart s index path flags := fun named leads _ absent => separate named leads absent

/-- The index of a file that was opened just now is not mapped. -/
theorem openFile_unmapped {v : Provider} {path : Option Path} {flags : OpenFlags} {s s' : Shared}
    {f : OpenFile} (opened : v.openFile path flags s = (.ok f, s')) : f.indexRegion? = none := by
  cases openFile_opened opened with
  | opened leads opening made => exact (assemble_new made fun _ => none).2.1

end Provider

namespace OpenFiles

/-- An index of this path is mapped, over this file. -/
def IndexAt (s : OpenFiles) (key : Path.Key) (id : FileId) : Prop :=
  ∃ name f x r, s.find? name = some f ∧ f.index = some x ∧ x.region? = some r ∧ x.path.key = key ∧
    r.fileId = id

/-- No path that is opened leads to the file of a region of another path, no path of an index to that of a
store, and others shorten no file. -/
def Separate (v : Provider) (s : OpenFiles) : ProviderEvent → Prop
  | .open _ path flags | .sizeOf path flags => v.Separate s.state s.index path flags
  | .ask name request => ∀ i slotSize extend f x, request = .requestSlot i slotSize extend →
    s.find? name = some f → f.index = some x → x.region? = none →
      s.openRegions.NoStoreAt x.path ∧ ∀ key id, s.IndexAt key id → key ≠ x.path.key →
        s.state.platform.files.target? x.path ≠ some id
  | .drop _ | .delete .. => True
  | .outside files => s.state.platform.files.Lengthens files

/-- The regions fit their files, and indexes of different paths have different files. -/
structure Distinct (s : OpenFiles) : Prop extends s.Fits where
  indexes : ∀ key key' id, s.IndexAt key id → s.IndexAt key' id → key = key'

variable {v : Provider} {s : OpenFiles} {name : String} {f f' g : OpenFile} {st : Shared}
  {key : Path.Key} {id : FileId}

theorem Separate.apart {e : ProviderEvent} (separate : s.Separate v e) : s.Apart v e := by
  cases e with
  | «open» name path flags => exact Provider.Separate.apart separate
  | sizeOf path flags => exact Provider.Separate.apart separate
  | ask name request =>
    intro f found
    cases request with
    | requestSlot i slotSize extend =>
      intro x has absent _
      exact (separate i slotSize extend f x rfl found has absent).1
    | _ => trivial
  | drop name => trivial
  | delete path syncing => trivial
  | outside files => exact separate

theorem indexAt_of_find? (found : s.find? name = some f) {x : SharedIndex} (has : f.index = some x)
    (mapped : f.HasIndex id) : s.IndexAt x.path.key id := by
  obtain ⟨r, mapped, here⟩ := mapped
  rw [OpenFile.indexRegion?, has, Option.bind_some] at mapped
  exact ⟨name, f, x, r, found, has, mapped, rfl, here⟩

/-- An index is mapped that was mapped before, or from the file that its path leads to. -/
theorem step_indexAt (fits : s.Fits) {e : ProviderEvent} (there : (s.step v e).IndexAt key id) :
    s.IndexAt key id ∨ ∃ name i slotSize extend f x, e = .ask name (.requestSlot i slotSize extend) ∧
      s.find? name = some f ∧ f.index = some x ∧ x.region? = none ∧ x.path.key = key ∧
        s.state.platform.files.target? x.path = some id := by
  obtain ⟨other, g, y, r, found, has, region, rfl, rfl⟩ := there
  cases e with
  | «open» name path flags =>
    rcases opening : v.openFile path flags s.state with ⟨result, st⟩
    simp only [step, Session.enter, opening] at found
    cases result with
    | error e => exact .inl ⟨other, g, y, r, found, has, region, rfl, rfl⟩
    | ok f =>
      dsimp only at found
      rw [Session.find?_put] at found
      split at found
      · cases found
        have unmapped := Provider.openFile_unmapped opening
        rw [OpenFile.indexRegion?, has, Option.bind_some, region] at unmapped
        cases unmapped
      · rw [Session.find?_drop] at found
        split at found
        · cases found
        · exact .inl ⟨other, g, y, r, found, has, region, rfl, rfl⟩
  | ask name request =>
    cases asked : s.find? name with
    | none =>
      rw [step_ask_of_none asked] at found
      exact .inl ⟨other, g, y, r, found, has, region, rfl, rfl⟩
    | some f =>
      rw [step_ask asked] at found
      have changed : (if other = name then some (f.serve request s.state).1 else s.find? other) =
        some g := (Session.find?_update asked _).symm.trans found
      split at changed
      · cases changed
        have mapped : (f.serve request s.state).1.indexRegion? = some r := by
          rw [OpenFile.indexRegion?, has, Option.bind_some, region]
        have same := (f.serve_stays request s.state).index
        rw [has] at same
        obtain ⟨x, has', path⟩ : ∃ x, f.index = some x ∧ x.path = y.path :=
          Option.map_eq_some_iff.mp same.symm
        have whole := OpenFile.fits_of_gather fits.regions (index_of_find? asked)
        obtain before | ⟨⟨x', has'', absent, target⟩, i, slotSize, extend, rfl⟩ :=
          OpenFile.serve_began whole mapped
        · rw [← path]
          exact .inl (indexAt_of_find? asked has' before)
        · cases has'.symm.trans has''
          rw [← path]
          exact .inr ⟨name, i, slotSize, extend, f, x, rfl, asked, has', absent, rfl, target⟩
      · exact .inl ⟨other, g, y, r, changed, has, region, rfl, rfl⟩
  | drop name =>
    have kept := (Session.find?_drop s name OpenFile.drop other).symm.trans found
    split at kept
    · cases kept
    · exact .inl ⟨other, g, y, r, kept, has, region, rfl, rfl⟩
  | sizeOf path flags => exact .inl ⟨other, g, y, r, found, has, region, rfl, rfl⟩
  | delete path syncing => exact .inl ⟨other, g, y, r, found, has, region, rfl, rfl⟩
  | outside files => exact .inl ⟨other, g, y, r, found, has, region, rfl, rfl⟩

theorem step_distinct {e : ProviderEvent} (distinct : s.Distinct) (separate : s.Separate v e) :
    (s.step v e).Distinct := by
  have fits := distinct.toFits
  refine ⟨step_fits fits separate.apart, ?_⟩
  -- Of two indexes over one file at most one is new, and its path led to the file of the other.
  have new {key key' : Path.Key} {id : FileId} (before : s.IndexAt key' id)
      (opened : ∃ name i slotSize extend f x, e = .ask name (.requestSlot i slotSize extend) ∧
        s.find? name = some f ∧ f.index = some x ∧ x.region? = none ∧ x.path.key = key ∧
          s.state.platform.files.target? x.path = some id) : key' = key := by
    obtain ⟨name, i, slotSize, extend, f, x, rfl, found, has, absent, rfl, target⟩ := opened
    by_contra different
    exact (separate i slotSize extend f x rfl found has absent).2 key' id before different target
  intro key key' id there there'
  obtain before | opened := step_indexAt fits there
  · obtain before' | opened' := step_indexAt fits there'
    · exact distinct.indexes key key' id before before'
    · exact new before opened'
  · obtain before' | opened' := step_indexAt fits there'
    · exact (new before' opened).symm
    · obtain ⟨name, _, _, _, f, x, rfl, found, has, _, rfl, _⟩ := opened
      obtain ⟨name', _, _, _, f', x', same, found', has', _, rfl, _⟩ := opened'
      cases same
      cases found.symm.trans found'
      cases has.symm.trans has'
      rfl

theorem start_distinct {p : Platform} (tidy : p.files.Tidy) : (start p).Distinct := by
  refine ⟨start_fits tidy, ?_⟩
  rintro key key' id ⟨name, f, x, r, found, _⟩
  cases found

/-- No region is over the file that a path leads to. -/
theorem noneAt_of_all {path : Path}
    (stores : (s.state.regions.entries.all fun e =>
      s.state.platform.files.target? path != some e.2.region.fileId) = true)
    (indexes : (s.objects.entries.all fun e => e.2.indexRegion?.all fun r =>
      s.state.platform.files.target? path != some r.fileId) = true) : s.openRegions.NoneAt path := by
  intro site r found
  cases site with
  | store key =>
    obtain ⟨held, there, rfl⟩ := Option.map_eq_some_iff.mp found
    exact bne_iff_ne.mp (List.all_eq_true.mp stores (key, held) (Keyed.mem_entries_iff.mpr there))
  | index name =>
    obtain ⟨f, there, mapped⟩ := Option.bind_eq_some_iff.mp found
    have away := List.all_eq_true.mp indexes (name, f) (Keyed.mem_entries_iff.mpr there)
    rw [mapped] at away
    exact bne_iff_ne.mp away

/-- A file may be opened by a path that leads to the file of no region. -/
theorem separate_open {path : Path} {flags : OpenFlags}
    (none : s.openRegions.NoneAt (v.resolve path flags.kind)) :
    s.Separate v (.open name (some path) flags) := by
  rintro _ ⟨⟩ _
  exact none

/-- A file may be asked for anything but a slot. -/
theorem separate_ask {request : FileRequest}
    (other : ∀ i slotSize extend, request ≠ .requestSlot i slotSize extend) :
    s.Separate v (.ask name request) :=
  fun i slotSize extend _ _ same => absurd same (other i slotSize extend)

/-- A file may be asked for a slot if its index is over the file of no region yet. -/
theorem separate_requestSlot (path : Path)
    (named : ((s.find? name).bind (·.index)).map (·.path) = some path)
    (none : s.openRegions.NoneAt path) {i slotSize : Nat} {extend : Bool} :
    s.Separate v (.ask name (.requestSlot i slotSize extend)) := by
  rintro _ _ _ f x - found has -
  rw [found, Option.bind_some, has, Option.map_some] at named
  obtain rfl := Option.some.inj named
  refine ⟨fun key => none (.store key), ?_⟩
  rintro key id ⟨other, g, y, r, there, indexed, region, _, rfl⟩ _
  refine none (.index other) r ?_
  rw [show s.openRegions.region? (.index other) = s.index other from rfl, index, there,
    Option.bind_some, OpenFile.indexRegion?, indexed, Option.bind_some, region]

end OpenFiles
end MappedStorage
