import MappedStorage.Proofs.Mapping.FailedOpening
import MappedStorage.Proofs.Provider.Retention

/-!
Files that can not be opened. What other files share is left as it was, a file keeps its length and its bytes, and
one that was made is empty (`Shared.Undamaged`). The same path opened later shows what it would have shown
(`Provider.failed_open_harmless`).
-/

namespace MappedStorage

/-- What failing to open a path leaves of the files: what they hold, and perhaps one more, which is empty. -/
inductive FileSystem.Restored (path : Path) (fs fs' : FileSystem) : Prop
  | kept (names : fs.SameNames fs') (holds : ∀ id, (fs.file id).Holds (fs'.file id))
  | made {holder : DirectoryId} {name : Name}
      (vacant : fs.resolve .create path = .ok (.vacant holder name))
      (names : (fs.addFile holder name .empty).SameNames fs')
      (empty : (fs'.file fs.nextFile).contents = #[])
      (others : ∀ id, id ≠ fs.nextFile → fs'.file id = fs.file id)

/-- What failing to open a path leaves of what files share. -/
structure Shared.Undamaged (path : Path) (s s' : Shared) : Prop where
  locks : s'.locks = s.locks
  regions : s'.regions = s.regions
  mappings : s'.platform.live = s.platform.live
  files : s.platform.files.Restored path s'.platform.files
  /-- Regions over the files that were there show what they did. -/
  shown : ∀ r : Region, r.Sound s.platform → r.fileId ≠ s.platform.files.nextFile →
    r.Sound s'.platform ∧ r.validBytes s'.platform = r.validBytes s.platform

/-- The shared state with other outcomes planned for the calls to come. -/
def Shared.withPlan (s : Shared) (plan : CallPlan) : Shared :=
  { s with platform := { s.platform with plan } }

namespace Platform

variable {path : Path} {p p' : Platform}

theorem Alike.holds {h : Handle} (alike : p.Alike h p')
    (size : (p'.files.file h.file).size = (p.files.file h.file).size) (id : FileId) :
    (p.files.file id).Holds (p'.files.file id) := by
  by_cases here : id = h.file
  · subst here
    exact alike.file.holds size
  · rw [alike.others id here]
    exact ⟨rfl, rfl⟩

/-- A region shows the same bytes as long as its file is no shorter. -/
theorem Alike.shown {h : Handle} (alike : p.Alike h p') {r : Region} (sound : r.Sound p) :
    r.Sound p' ∧ r.validBytes p' = r.validBytes p := by
  have padded : (r.backing p).Padded (r.backing p') := by
    rw [Region.backing, Region.backing]
    by_cases here : r.fileId = h.file
    · rw [here]
      exact alike.file
    · rw [alike.others _ here]
      exact .refl _
  have later : r.Sound p' :=
    { sound with capacity_le := Nat.le_trans sound.capacity_le padded.size_le }
  refine ⟨later, ?_⟩
  rw [Region.validBytes_eq later, Region.validBytes_eq sound]
  exact padded.slice_eq (by have := sound.used_le; have := sound.capacity_le; omega)

/-- A file that is made is under no region that was there. -/
theorem shown_addFile {r : Region} (holder : DirectoryId) (name : Name) (sound : r.Sound p)
    (old : r.fileId ≠ p.files.nextFile) :
    let q : Platform := { p with files := p.files.addFile holder name .empty }
    r.Sound q ∧ r.validBytes q = r.validBytes p := by
  intro q
  have same : r.backing q = r.backing p := FileSystem.file_setFile_of_ne _ _ old
  have later : r.Sound q := { sound with capacity_le := same ▸ sound.capacity_le }
  refine ⟨later, ?_⟩
  rw [Region.validBytes_eq later, Region.validBytes_eq sound, same]

namespace Restored

theorem live (restored : p.Restored path p') : p'.live = p.live := by
  cases restored with
  | unchanged same => rw [same]
  | kept leads alike size => exact alike.live
  | made vacant alike size => exact alike.live

theorem files (restored : p.Restored path p') : p.files.Restored path p'.files := by
  cases restored with
  | unchanged same =>
    rw [same]
    exact .kept (.refl _) fun _ => ⟨rfl, rfl⟩
  | kept leads alike size => exact .kept alike.names (alike.holds size)
  | @made holder name vacant alike size =>
    refine .made vacant alike.names ?_ fun id old => ?_
    · exact Array.eq_empty_of_size_eq_zero ((File.size_contents _).trans size)
    · exact (alike.others id old).trans (FileSystem.file_setFile_of_ne _ _ old)

theorem shown (restored : p.Restored path p') {r : Region} (sound : r.Sound p)
    (old : r.fileId ≠ p.files.nextFile) : r.Sound p' ∧ r.validBytes p' = r.validBytes p := by
  cases restored with
  | unchanged same =>
    rw [same]
    exact ⟨sound, rfl⟩
  | kept leads alike size => exact alike.shown sound
  | @made holder name vacant alike size =>
    obtain ⟨sound', bytes⟩ := shown_addFile holder name sound old
    obtain ⟨later, same⟩ := alike.shown sound'
    exact ⟨later, same.trans bytes⟩

/-- A path that led to a file still does. -/
theorem isPresent (restored : p.Restored path p') (present : p.files.isPresent path = true) :
    p'.files.isPresent path = true := by
  cases restored with
  | unchanged same => rwa [same]
  | kept leads alike size =>
    rw [FileSystem.isPresent, FileSystem.stat, FileSystem.entryAt] at present ⊢
    rwa [alike.names.resolve]
  | made vacant alike size =>
    rw [FileSystem.isPresent_of_vacant vacant] at present
    cases present

end Restored
end Platform

namespace Provider

variable {v : Provider} {path : Path} {flags : OpenFlags} {s s' : Shared} {f : OpenFile} {e : ProviderError}

/-! ## Opening -/

/-- A path without a region is opened if it is that of a file which is there or may be made, and a region of it
can be opened. -/
theorem openFile_isOk_iff (absent : s.regions.find? (v.resolve path flags.kind).key = none) :
    (v.openFile (some path) flags s).1.isOk = true ↔
      flags.kind.role ≠ none ∧ flags.deleteOnClose = false ∧
      (flags.create = true ∨ s.platform.files.isPresent (v.resolve path flags.kind) = true) ∧
      ∃ setup, v.regionSetup = .ok setup ∧
        (Region.open (v.resolve path flags.kind) setup s.platform).1.isOk = true := by
  cases known : flags.kind.role with
  | none => simp [openFile, known, Except.isOk, Except.toBool]
  | some role =>
    cases deleted : flags.deleteOnClose with
    | true => simp [openFile, known, deleted, Except.isOk, Except.toBool]
    | false =>
      by_cases present : flags.create = true ∨
          s.platform.files.isPresent (v.resolve path flags.kind) = true
      · have found : ¬ ((!flags.create && !s.platform.files.isPresent (v.resolve path flags.kind)) = true) := by
          simpa [or_iff_not_imp_left] using present
        simp only [openFile, known, deleted, if_neg found, Store.open, absent]
        cases planned : v.regionSetup with
        | error e => simp [Except.isOk, Except.toBool]
        | ok setup =>
          rcases opening : Region.open (v.resolve path flags.kind) setup s.platform with ⟨_ | r, q⟩ <;>
            simp [opening, present, Except.isOk, Except.toBool]
      · have missing : (!flags.create && !s.platform.files.isPresent (v.resolve path flags.kind)) = true := by
          simpa using present
        simp [openFile, known, deleted, missing, present, Except.isOk, Except.toBool]

/-- A file of a path without a region shows what the path leads to. -/
theorem openFile_shows (absent : s.regions.find? (v.resolve path flags.kind).key = none)
    (opened : v.openFile (some path) flags s = (.ok f, s')) :
    f.Shows s' (s.platform.files.bytesAt (v.resolve path flags.kind)) := by
  cases openFile_opened opened with
  | opened leads opening made planned present =>
    cases leads
    have made := assemble_correct made
    obtain ⟨held, found, -⟩ | ⟨-, r, opened, rfl, rfl⟩ := Store.open_correct opening
    · cases absent.symm.trans found
    · have correct := (Region.open_correct opened).2
      have here : f.path = v.resolve path flags.kind := by rw [OpenFile.path, made.store]; rfl
      have own := (s.regions.differs_insert (v.resolve path flags.kind).key ⟨r, 1⟩).here
      have retains : s'.regions.Retains f.path.key r.fileId
          (s.platform.files.bytesAt (v.resolve path flags.kind)) s'.platform := by
        rw [here, made.regions, made.platform]
        exact RegionTable.retains_of_bears own
          ⟨rfl, correct.setup_eq ▸ trims_of_planned planned, correct.clear, correct.bytes⟩
      refine OpenFile.shows_of_retains retains ?_ ?_
      · rw [here, made.regions, own]
        exact Option.some_ne_none _
      · rw [made.store]
        rfl

/-- Opening fails before anything has happened, or as a region is opened. -/
theorem restored_of_openFile_error (failed : v.openFile (some path) flags s = (.error e, s')) :
    s'.locks = s.locks ∧ s'.regions = s.regions ∧
      s.platform.Restored (v.resolve path flags.kind) s'.platform := by
  cases openFile_opened failed with
  | refused e => exact ⟨rfl, rfl, .unchanged rfl⟩
  | failed leads opening planned present =>
    cases leads
    obtain ⟨-, rfl, e, opening⟩ := Store.open_correct opening
    exact ⟨rfl, rfl, Region.open_error (trims_of_planned planned) opening⟩

/-! ## Opening again -/

/-- A file can be opened after it could not, if it could have been before: it has been left as it was. -/
theorem openFile_isOk_of_restored (plan : CallPlan)
    (absent : s.regions.find? (v.resolve path flags.kind).key = none) (regions : s'.regions = s.regions)
    (restored : s.platform.Restored (v.resolve path flags.kind) s'.platform)
    (ok : (v.openFile (some path) flags (s.withPlan plan)).1.isOk = true) :
    (v.openFile (some path) flags (s'.withPlan plan)).1.isOk = true := by
  have absent' : s'.regions.find? (v.resolve path flags.kind).key = none := by rwa [regions]
  obtain ⟨role, kept, present, setup, planned, opens⟩ := (openFile_isOk_iff (s := s.withPlan plan) absent).mp ok
  refine (openFile_isOk_iff (s := s'.withPlan plan) absent').mpr ⟨role, kept, ?_, setup, planned, ?_⟩
  · exact present.imp_right restored.isPresent
  · exact (restored.open_isOk setup plan).trans opens

theorem openFile_again {plan : CallPlan} {t : Shared}
    (absent : s.regions.find? (v.resolve path flags.kind).key = none) (regions : s'.regions = s.regions)
    (restored : s.platform.Restored (v.resolve path flags.kind) s'.platform)
    (opened : v.openFile (some path) flags (s.withPlan plan) = (.ok f, t)) :
    let bytes := s.platform.files.bytesAt (v.resolve path flags.kind)
    f.Shows t bytes ∧
      ∃ f' t', v.openFile (some path) flags (s'.withPlan plan) = (.ok f', t') ∧ f'.Shows t' bytes := by
  intro bytes
  have ok : (v.openFile (some path) flags (s.withPlan plan)).1.isOk = true := by rw [opened]; rfl
  obtain ⟨f', t', opened'⟩ :=
    Region.exists_of_isOk (openFile_isOk_of_restored plan absent regions restored ok)
  have absent' : s'.regions.find? (v.resolve path flags.kind).key = none := by rwa [regions]
  have shows' := openFile_shows (s := s'.withPlan plan) absent' opened'
  have kept : (s'.withPlan plan).platform.files.bytesAt (v.resolve path flags.kind) = bytes :=
    restored.bytesAt_eq
  rw [kept] at shows'
  exact ⟨openFile_shows (s := s.withPlan plan) absent opened, f', t', opened', shows'⟩

/-- A file that can not be opened is not damaged, nor is anything else. Where its path is opened later, whatever
is planned for the calls by then, it shows what it would have shown. -/
theorem failed_open_harmless (v : Provider) (path : Path) (flags : OpenFlags) (s s' : Shared) (e : ProviderError)
    (absent : s.regions.find? (v.resolve path flags.kind).key = none)
    (failed : v.openFile (some path) flags s = (.error e, s')) :
    let real := v.resolve path flags.kind
    let bytes := s.platform.files.bytesAt real
    s.Undamaged real s' ∧
      ∀ (w : Provider) (named : Path) (again : OpenFlags) (plan : CallPlan) (f : OpenFile) (t : Shared),
        w.resolve named again.kind = real → w.openFile (some named) again (s.withPlan plan) = (.ok f, t) →
        f.Shows t bytes ∧ ∃ f' t', w.openFile (some named) again (s'.withPlan plan) = (.ok f', t') ∧
          f'.Shows t' bytes := by
  intro real bytes
  obtain ⟨locks, regions, restored⟩ := restored_of_openFile_error failed
  refine ⟨⟨locks, regions, restored.live, restored.files, fun r => restored.shown⟩, ?_⟩
  intro w named again plan f t same opened
  have absent : s.regions.find? (w.resolve named again.kind).key = none := same ▸ absent
  have restored : s.platform.Restored (w.resolve named again.kind) s'.platform := same ▸ restored
  have bytes_eq : bytes = s.platform.files.bytesAt (w.resolve named again.kind) := by rw [same]
  rw [bytes_eq]
  exact openFile_again absent regions restored opened

/-- For instance a file of three bytes, the mapping of which is refused. -/
theorem open_after_refused_mapping :
    let path : Path := .ofNames [[0x78]]
    let v : Provider := { settings := { initialCapacity := 4 }, mapper := {} }
    let flags : OpenFlags := { kind := .mainDb }
    let refusing : CallPlan := { plain := [.refused Errno.noMemory] }
    let s : Shared := { platform := {
      files := FileSystem.empty.addFile FileSystem.root [0x78] (.ofBytes #[1, 2, 3]), plan := refusing } }
    let s' := (v.openFile (some path) flags s).2
    (v.openFile (some path) flags s).1 = .error (.outOfMemory (.outOfMemory 3 ⟨Errno.noMemory⟩)) ∧
      s.Undamaged path s' ∧
      ∃ f t, v.openFile (some path) flags (s'.withPlan {}) = (.ok f, t) ∧ f.Shows t #[1, 2, 3] := by
  intro path v flags refusing s s'
  have real : v.resolve path flags.kind = path := by
    dsimp +zetaDelta only
    cbv
  have refused : (v.openFile (some path) flags s).1 =
      .error (.outOfMemory (.outOfMemory 3 ⟨Errno.noMemory⟩)) := by
    dsimp +zetaDelta only
    cbv
  have granted : (v.openFile (some path) flags (s.withPlan {})).1.isOk = true := by
    dsimp +zetaDelta only
    cbv
  have bytes : s.platform.files.bytesAt path = #[1, 2, 3] := by
    dsimp +zetaDelta only
    cbv
  obtain ⟨undamaged, again⟩ := failed_open_harmless v path flags s s' _ rfl (Prod.ext refused rfl)
  obtain ⟨f, t, opened⟩ := Region.exists_of_isOk granted
  obtain ⟨-, f', t', opened', shows⟩ := again v path flags {} f t rfl opened
  rw [real] at undamaged shows
  exact ⟨refused, undamaged, f', t', opened', bytes ▸ shows⟩

end Provider
end MappedStorage
