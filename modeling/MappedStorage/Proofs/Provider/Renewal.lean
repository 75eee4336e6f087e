import MappedStorage.Proofs.Provider.Retention

/-!
Files that are opened after they were deleted. A path whose file is deleted leads to a vacant place until
it is opened for a new one (`OpenFiles.run_isVacant`). If no file of the path is open by then, the new file
is empty, and keeps what is written to it (`OpenFiles.run_renewed`).
-/

namespace MappedStorage

open OpenRegions

namespace Provider

variable {v : Provider} {path : Option Path} {named : Path} {flags : OpenFlags} {s s' : Shared}
  {index : String → Option Region} {real : Path} {f : OpenFile}

/-- A new file can be opened: it is asked for, it is not a temporary one, and there is room for its
region. -/
structure CanMake (v : Provider) (flags : OpenFlags) (p : Platform) : Prop where
  creates : flags.create = true
  kept : flags.deleteOnClose = false
  role : flags.kind.role ≠ none
  room : ∃ setup, v.regionSetup = .ok setup ∧ Region.HasRoom setup p

theorem openFile_isOk (vacant : s.platform.files.IsVacant (v.resolve named flags.kind))
    (absent : s.regions.find? (v.resolve named flags.kind).key = none)
    (canMake : v.CanMake flags s.platform) : (v.openFile (some named) flags s).1.isOk = true := by
  obtain ⟨holder, name, vacant⟩ := vacant
  obtain ⟨role, known⟩ := Option.ne_none_iff_exists'.mp canMake.role
  obtain ⟨setup, planned, room⟩ := canMake.room
  have granted : (Store.open (v.resolve named flags.kind) role setup s.regions s.platform).1.isOk = true :=
    Store.open_isOk absent vacant room
  obtain ⟨store, t, opening⟩ := Region.exists_of_isOk granted
  simp only [openFile, known, canMake.kept, canMake.creates, planned, opening]
  rfl

/-- A file that is opened at a vacant place is new: it holds nothing, and no region is over it but its
own. -/
theorem openFile_renews (fits : (s.gather index).Fits)
    (vacant : s.platform.files.IsVacant (v.resolve named flags.kind))
    (absent : s.regions.find? (v.resolve named flags.kind).key = none)
    (opened : v.openFile (some named) flags s = (.ok f, s')) :
    s'.Keeps index (v.resolve named flags.kind) s.platform.files.nextFile #[] ∧
      f.store.closed = false := by
  obtain ⟨holder, name, vacant⟩ := vacant
  cases openFile_opened opened with
  | opened leads opening made planned =>
    cases leads
    have made := assemble_correct made
    obtain ⟨retains, found⟩ := Store.open_new absent (trims_of_planned planned) vacant opening
    refine ⟨⟨?_, ?_, ?_⟩, ?_⟩
    · rw [made.platform]
      exact found
    · -- Regions that were there before are over files that were made before.
      intro site r there other
      refine Nat.ne_of_lt ?_
      cases site with
      | index name => exact fits.made (.index name) r there
      | store key =>
        obtain ⟨held', found', rfl⟩ := Option.map_eq_some_iff.mp there
        obtain ⟨held, before, same⟩ | ⟨⟨_, leads, moved⟩, _⟩ := openFile_began opened found'
        · rw [same]
          exact fits.made (.store key) held.region (RegionTable.gather_store_of_find? before)
        · cases leads
          exact absurd (congrArg Site.store moved) other
    · rw [made.regions, made.platform]
      exact retains
    · rw [made.store]
      obtain ⟨_, _, rfl, _, _⟩ | ⟨_, _, _, rfl, _⟩ := Store.open_correct opening <;> rfl

theorem sizeOf_makesAt (fits : (s.gather index).Fits) (separate : v.Separate s index path flags) :
    s.platform.files.MakesAt (v.MayMake path flags s.platform.files)
      (v.sizeOf path flags s).2.platform.files := by
  rcases asked : v.sizeOf path flags s with ⟨_, s'⟩
  cases sizeOf_sized asked with
  | failed opening => exact (openFile_leaves opening).2.1
  | @sized f f' s₁ s₂ opening closing =>
    have fits₁ := (openFile_steps fits separate.apart opening).1.fits
    have unmapped := openFile_unmapped opening
    have names := (OpenFile.close_leaves (OpenFile.fits_of_none fits₁ unmapped)).2
    have goes := f.close_goes s₁
    rw [closing] at names goes
    obtain ⟨unmapped', goes⟩ := goes.unmapped unmapped
    have own' := OpenFile.fits_of_none (goes index fits₁).1 unmapped'
    exact (openFile_leaves opening).2.1.trans_sameNames (names.trans (OpenFile.drop_leaves own').2)

/-- A deleted file leaves a vacant place. -/
theorem delete_isVacant {id : FileId}
    (there : s.platform.files.linkStat (v.resolve named .mainDb) = .ok (.file id)) (syncing : Bool) :
    (v.delete named syncing s).2.platform.files.IsVacant (v.resolve named .mainDb) := by
  obtain ⟨holder, name, unlinked, vacant⟩ := FileSystem.exists_vacant_of_unlink there
  simp only [delete, unlinked]
  exact ⟨holder, name, vacant⟩

end Provider

namespace OpenFiles

variable {v : Provider} {s : OpenFiles} {real : Path} {id : FileId} {bytes : Bytes} {e : ProviderEvent}
  {name : String} {st : Shared}

/-- An event opens a path for a file that may be made. -/
def Opens (v : Provider) (real : Path) : ProviderEvent → Prop
  | .open _ path flags | .sizeOf path flags =>
    ∃ named, path = some named ∧ v.resolve named flags.kind = real ∧ flags.create = true
  | _ => False

/-- What the files of a path come to: those that are open show these bytes, and once all are closed, the
path leads to a file that holds them. -/
structure Holds (s : OpenFiles) (real : Path) (bytes : Bytes) : Prop where
  shown : ∀ name f, s.find? name = some f → f.path.key = real.key → f.store.closed = false →
    f.Shows s.state bytes
  kept : s.AllClosed real.key → ∃ id, s.state.platform.files.openExisting real true = .ok ⟨id, true⟩ ∧
    (s.state.platform.files.file id).contents = bytes

theorem holds_of_keeps (counts : s.state.regions.Counts s.holders)
    (keeps : s.state.Keeps s.index real id bytes) : s.Holds real bytes := by
  constructor
  case shown =>
    intro name f found here isOpen
    exact OpenFile.shows_of_retains (here ▸ keeps.retains) (find?_ne_none counts found isOpen) isOpen
  case kept =>
    intro closed
    exact ⟨id, keeps.leads, keeps.retains.contents (find?_eq_none counts closed)⟩

theorem drop_sameNames (fits : (st.gather s.index).Fits) (name : String) :
    st.platform.files.SameNames
      (Session.drop { s with state := st } name OpenFile.drop).state.platform.files := by
  cases found : s.find? name with
  | none =>
    have absent : Session.find? { s with state := st } name = none := found
    simp only [Session.drop, absent]
    exact .refl _
  | some f =>
    have there : Session.find? { s with state := st } name = some f := found
    simp only [Session.drop, there]
    exact (OpenFile.drop_leaves (OpenFile.fits_of_gather fits (index_of_find? found))).2

/-- A vacant place stays so while other paths are opened. -/
theorem step_isVacant (distinct : s.Distinct) (separate : s.Separate v e) (apart : s.KeepsApart v real e)
    (unopened : ¬ Opens v real e) (vacant : s.state.platform.files.IsVacant real) :
    (s.step v e).state.platform.files.IsVacant real := by
  have fits := distinct.toFits.regions
  have elsewhere {path : Option Path} {flags : OpenFlags}
      (unopened : ¬ ∃ named, path = some named ∧ v.resolve named flags.kind = real ∧ flags.create = true)
      (apart : v.OpensApart real path flags s.state.platform.files) (other : Path)
      (made : v.MayMake path flags s.state.platform.files other) :
      s.state.platform.files.resolve .create other ≠ s.state.platform.files.resolve .create real := by
    obtain ⟨named, leads, rfl, present⟩ := made
    obtain rfl | apart := apart named leads
    · obtain ⟨holder, name, vacant⟩ := vacant
      rw [FileSystem.isPresent_of_vacant vacant, or_iff_left nofun] at present
      exact absurd ⟨named, leads, rfl, present⟩ unopened
    · exact apart.place
  cases e with
  | «open» name path flags =>
    rcases opening : v.openFile path flags s.state with ⟨result, st⟩
    have opened := (Provider.openFile_leaves opening).2.1.isVacant vacant (elsewhere unopened apart)
    have steps := (Provider.openFile_steps fits (Provider.Separate.apart separate) opening).1
    simp only [step, Session.enter, opening]
    cases result with
    | error e => exact opened
    | ok f => exact (drop_sameNames steps.fits name).isVacant opened
  | ask name request =>
    cases found : s.find? name with
    | none =>
      rw [step_ask_of_none found]
      exact vacant
    | some f =>
      by_cases deleted : request = .unmapIndex true
      · obtain ⟨holder, name', vacant⟩ := vacant
        exact ⟨holder, name', (apart.2 deleted .create).trans vacant⟩
      · rw [step_ask found]
        have makes := (OpenFile.serve_leaves (OpenFile.fits_of_gather fits (index_of_find? found))
          request).2 deleted
        refine makes.isVacant vacant ?_
        intro other made
        cases request with
        | requestSlot i slotSize extend =>
          obtain ⟨x, has, _, rfl⟩ := made
          exact (apart.1 i slotSize extend f x rfl found has).place
        | _ => exact made.elim
  | drop name => exact (drop_sameNames fits name).isVacant vacant
  | sizeOf path flags =>
    exact (Provider.sizeOf_makesAt fits separate).isVacant vacant (elsewhere unopened apart)
  | delete path syncing =>
    obtain ⟨holder, name, vacant⟩ := vacant
    exact ⟨holder, name, (apart .create).trans vacant⟩
  | outside files => exact apart.elim

theorem run_isVacant {events : List ProviderEvent} (distinct : s.Distinct)
    (separate : s.Follows v (Separate v) events) (apart : s.Follows v (KeepsApart v real) events)
    (unopened : ∀ e ∈ events, ¬ Opens v real e) (vacant : s.state.platform.files.IsVacant real) :
    (s.run v events).state.platform.files.IsVacant real := by
  induction events generalizing s with
  | nil => exact vacant
  | cons e rest ih =>
    exact ih (step_distinct distinct separate.1) separate.2 apart.2
      (fun e later => unopened e (List.mem_cons_of_mem _ later))
      (step_isVacant distinct separate.1 apart.1 (unopened e List.mem_cons_self) vacant)

/-- A path that leads to a vacant place, and has no open files, is opened for a new file. -/
theorem step_open_renews {p : Path} {flags : OpenFlags} (fits : s.openRegions.Fits)
    (separate : s.Separate v (.open name (some p) flags))
    (counts : s.state.regions.Counts s.holders) (closed : s.AllClosed (v.resolve p flags.kind).key)
    (vacant : s.state.platform.files.IsVacant (v.resolve p flags.kind))
    (canMake : v.CanMake flags s.state.platform) :
    let s' := s.step v (.open name (some p) flags)
    (∃ f, s'.find? name = some f ∧ f.path = v.resolve p flags.kind ∧ f.store.closed = false) ∧
      s'.state.Keeps s'.index (v.resolve p flags.kind) s.state.platform.files.nextFile #[] := by
  have absent := find?_eq_none counts closed
  obtain ⟨f, st, opening⟩ :=
    Region.exists_of_isOk (Provider.openFile_isOk vacant absent canMake)
  obtain ⟨keeps, isOpen⟩ := Provider.openFile_renews fits vacant absent opening
  have steps := (Provider.openFile_steps fits (Provider.Separate.apart separate) opening).1
  obtain ⟨_, leads, path, _⟩ := Provider.openFile_file opening
  cases leads
  have dropped := drop_keeps (s := { s with state := st }) steps.fits keeps name
  have gone : Session.find? (Session.drop { s with state := st } name OpenFile.drop) name = none := by
    rw [Session.find?_drop, if_pos rfl]
  simp only [step, Session.enter, opening]
  refine ⟨⟨f, ?_, path, isOpen⟩, ?_⟩
  · rw [Session.find?_put, if_pos rfl]
  · rw [index_put gone (Provider.openFile_unmapped opening)]
    exact dropped

/-- A file may be asked for anything but a slot, and for the removal of its index. -/
theorem keepsApart_ask {request : FileRequest}
    (slot : ∀ i slotSize extend, request ≠ .requestSlot i slotSize extend)
    (kept : request ≠ .unmapIndex true) : s.KeepsApart v real (.ask name request) :=
  ⟨fun i slotSize extend _ _ same => absurd same (slot i slotSize extend), fun same => absurd same kept⟩

theorem allClosed_of_all {key : Path.Key}
    (closed : (s.objects.entries.all fun e => e.2.path.key != key || e.2.store.closed) = true) :
    s.AllClosed key := by
  intro name f found here
  have closed := List.all_eq_true.mp closed (name, f) (Keyed.mem_entries_iff.mpr found)
  simpa [here] using closed

/-- A path whose file was deleted is opened for a new file as soon as all files of the path are closed. The
new file is empty, and keeps what is written through the files of the path from then on. -/
theorem run_renewed (v : Provider) (p : Path) (platform : Platform) (tidy : platform.files.Tidy)
    (before middle after : List ProviderEvent) (syncing : Bool) (name : String) (flags : OpenFlags)
    (separate : (start platform).Follows v (Separate v)
      (before ++ .delete p syncing :: (middle ++ .open name (some p) flags :: after)))
    (addressed : v.resolve p flags.kind = v.resolve p .mainDb) :
    let real := v.resolve p .mainDb
    let s₀ := (start platform).run v before
    let s₁ := (s₀.step v (.delete p syncing)).run v middle
    let s₂ := s₁.step v (.open name (some p) flags)
    (∃ old, s₀.state.platform.files.linkStat real = .ok (.file old)) →
    (s₀.step v (.delete p syncing)).Follows v (KeepsApart v real)
      (middle ++ .open name (some p) flags :: after) →
    (∀ e ∈ middle, ¬ Opens v real e) → s₁.AllClosed real.key → v.CanMake flags s₁.state.platform →
    (∃ f, s₂.find? name = some f ∧ f.path = real ∧ f.store.closed = false) ∧ s₂.Holds real #[] ∧
      (s₂.run v after).Holds real (s₂.written v real.key #[] after) := by
  rintro real s₀ s₁ s₂ ⟨old, there⟩ apart unopened closed canMake
  obtain ⟨separate_before, separate_delete, separate_rest⟩ := follows_append separate
  obtain ⟨separate_middle, separate_open, separate_after⟩ := follows_append separate_rest
  obtain ⟨apart_middle, _, apart_after⟩ := follows_append apart
  have distinct₀ : s₀.Distinct :=
    run_induction (fun _ _ => step_distinct) separate_before (start_distinct tidy)
  have distinct := step_distinct distinct₀ separate_delete
  have distinct₁ : s₁.Distinct := run_induction (fun _ _ => step_distinct) separate_middle distinct
  have distinct₂ : s₂.Distinct := step_distinct distinct₁ separate_open
  have vacant : s₁.state.platform.files.IsVacant real :=
    run_isVacant distinct separate_middle apart_middle unopened (Provider.delete_isVacant there syncing)
  have counts₁ : s₁.state.regions.Counts s₁.holders :=
    run_counts (step_counts (run_counts (start_counts platform) before) _) middle
  have counts₂ : s₂.state.regions.Counts s₂.holders := step_counts counts₁ _
  obtain ⟨opened, keeps⟩ : (∃ f, s₂.find? name = some f ∧ f.path = real ∧ f.store.closed = false) ∧
      s₂.state.Keeps s₂.index real s₁.state.platform.files.nextFile #[] := by
    rw [show real = v.resolve p flags.kind from addressed.symm] at closed vacant ⊢
    exact step_open_renews distinct₁.toFits.regions separate_open counts₁ closed vacant canMake
  exact ⟨opened, holds_of_keeps counts₂ keeps, holds_of_keeps (run_counts counts₂ after)
    (run_keeps distinct₂ separate_after apart_after keeps)⟩

/-- For instance a file that is closed between its deletion and the making of the new one. -/
theorem new_file_after_deletion :
    let p : Path := .ofNames [[0x78]]
    let v : Provider := { settings := { initialCapacity := 4 }, mapper := {} }
    let real := v.resolve p .mainDb
    let before : List ProviderEvent :=
      [.open "old" (some p) { kind := .mainDb }, .ask "old" (.write 0 #[1, 2, 3])]
    let middle : List ProviderEvent := [.ask "old" .close]
    let after : List ProviderEvent := [.ask "new" (.write 0 #[4]), .ask "new" .close]
    let s₁ := (((start .empty).run v before).step v (.delete p false)).run v middle
    let s₂ := s₁.step v (.open "new" (some p) { kind := .mainDb })
    let s₃ := s₂.run v after
    s₁.AllClosed real.key ∧ s₂.Holds real #[] ∧
      ∃ id, s₃.state.platform.files.openExisting real true = .ok ⟨id, true⟩ ∧
        (s₃.state.platform.files.file id).contents = #[4] := by
  intro p v real before middle after s₁ s₂ s₃
  have separate : (start .empty).Follows v (Separate v) (before ++ .delete p false ::
      (middle ++ .open "new" (some p) { kind := .mainDb } :: after)) := by
    refine ⟨separate_open (noneAt_of_all ?_ ?_), separate_ask (by simp), trivial, separate_ask (by simp),
      separate_open (noneAt_of_all ?_ ?_), separate_ask (by simp), separate_ask (by simp), trivial⟩
    all_goals
      dsimp +zetaDelta only
      cbv
  have there : ∃ old, ((start .empty).run v before).state.platform.files.linkStat real =
      .ok (.file old) := by
    refine ⟨1, ?_⟩
    dsimp +zetaDelta only
    cbv
  have apart : (((start .empty).run v before).step v (.delete p false)).Follows v (KeepsApart v real)
      (middle ++ .open "new" (some p) { kind := .mainDb } :: after) := by
    refine ⟨keepsApart_ask (by simp) (by simp), ?_, keepsApart_ask (by simp) (by simp), keepsApart_ask (by simp) (by simp),
      trivial⟩
    rintro _ ⟨⟩
    exact .inl rfl
  have unopened : ∀ e ∈ middle, ¬ Opens v real e := by
    rintro _ member opens
    cases List.mem_singleton.mp member
    exact opens
  have closed : s₁.AllClosed real.key := by
    refine allClosed_of_all ?_
    dsimp +zetaDelta only
    cbv
  have canMake : v.CanMake { kind := .mainDb } s₁.state.platform := by
    refine ⟨rfl, rfl, by decide, { initialCapacity := 4 }, ?_, 4, ?_, by decide, fun _ => ?_⟩
    all_goals
      dsimp +zetaDelta only
      cbv
  have renewed := run_renewed v p .empty FileSystem.tidy_empty before middle after false "new"
    { kind := .mainDb } separate rfl
  obtain ⟨_, fresh, later⟩ : _ ∧ s₂.Holds real #[] ∧ s₃.Holds real (s₂.written v real.key #[] after) :=
    renewed there apart unopened closed canMake
  have closed₃ : s₃.AllClosed real.key := by
    refine allClosed_of_all ?_
    dsimp +zetaDelta only
    cbv
  have written : s₂.written v real.key #[] after = #[4] := by
    dsimp +zetaDelta only
    cbv
  rw [written] at later
  exact ⟨closed, fresh, later.kept closed₃⟩

/-- Where a file is still open that was opened before the deletion, the path is opened for the deleted file
again, and what is written to it then is gone once all are closed. -/
theorem deleted_file_returns :
    let p : Path := .ofNames [[0x78]]
    let v : Provider := { settings := { initialCapacity := 4 }, mapper := {} }
    let s₁ := (start .empty).run v [.open "old" (some p) { kind := .mainDb },
      .ask "old" (.write 0 #[1, 2, 3]), .delete p false]
    let s₂ := s₁.step v (.open "new" (some p) { kind := .mainDb })
    let s₃ := s₂.run v [.ask "new" (.write 0 #[4]), .ask "new" (.sync {}), .ask "new" .close,
      .ask "old" .close]
    s₁.state.platform.files.isPresent (v.resolve p .mainDb) = false ∧
      ((s₂.find? "new").map fun f => f.readInto 0 #[0, 0, 0] s₂.state) = some (.ok (), #[1, 2, 3]) ∧
      (s₃.objects.entries.all fun e => e.2.store.closed) = true ∧
      s₃.state.platform.files.isPresent (v.resolve p .mainDb) = false := by
  refine ⟨?_, ?_, ?_, ?_⟩
  all_goals cbv

end OpenFiles
end MappedStorage
