import MappedStorage.Proofs.Mapping.Twins
import MappedStorage.Proofs.System.Vacancy

/-!
Opening a region that fails. It may fail after the file was made or lengthened, but by then the region knows how
much of the file is used, so giving it up trims the file to what it was (`ofTrackedFile_error`). What is left is a
platform on which a region of the path is opened just as before, as far as the calls to come succeed alike
(`Platform.Restored.open_isOk`).
-/

namespace MappedStorage

/-- What failing to open a region of a path leaves of a platform. -/
inductive Platform.Restored (path : Path) (p p' : Platform) : Prop
  /-- Nothing has happened. -/
  | unchanged (same : p' = p)
  /-- The file of the path is as long as it was. -/
  | kept {h : Handle} (leads : p.files.openExisting path true = .ok h) (alike : p.Alike h p')
      (size : (p'.files.file h.file).size = (p.files.file h.file).size)
  /-- A file has been made, and it is empty. -/
  | made {holder : DirectoryId} {name : Name}
      (vacant : p.files.resolve .create path = .ok (.vacant holder name))
      (alike : ({ p with files := p.files.addFile holder name .empty } : Platform).Alike
        ⟨p.files.nextFile, true⟩ p')
      (size : (p'.files.file p.files.nextFile).size = 0)

/-- A file that has become longer and is cut to the length that it had. -/
theorem Platform.Alike.trimmed {f : TrackedFile} {p p' : Platform} (alike : p.Alike f.handle p')
    (writable : f.handle.writable = true)
    (addressable : (p.files.file f.handle.file).size ≤ Word.addressable)
    (bounded : (p.files.file f.handle.file).size < (p'.files.file f.handle.file).size →
      (p.files.file f.handle.file).size ≤ FileSystem.maxFile) :
    let files := (f.trimTo (p.files.file f.handle.file).size p'.files).2.2
    p.Alike f.handle { p' with files } ∧
      (files.file f.handle.file).size = (p.files.file f.handle.file).size := by
  have same := f.trimTo_sameFile (p.files.file f.handle.file).size p'.files
  have cut := (f.trimTo_file writable addressable bounded).2
  have padded := alike.file.cut (Nat.le_refl _)
  have size := alike.file.size_cut (Nat.le_refl _)
  rw [if_neg (Nat.lt_irrefl _), ← cut] at padded size
  refine ⟨⟨alike.live, alike.plan, alike.names.trans same.names, ?_, padded, ?_⟩, size⟩
  · intro other different
    exact (same.others other different).trans (alike.others other different)
  · intro longer
    dsimp only at longer
    omega

/-- Platforms that are alike are twins wherever the same outcomes are planned for both. -/
theorem Platform.Alike.withPlan {h : Handle} {p p' : Platform} (alike : p.Alike h p') (plan : CallPlan) :
    ({ p with plan } : Platform).Twin h { p' with plan } := by
  obtain ⟨live, -, names, others, file, lengthened⟩ := alike
  exact ⟨⟨live, rfl, ⟨names.1, names.2, names.3⟩, others, file, lengthened⟩, rfl⟩

/-! ## Growing -/

/-- Growing a file is a matter of its handle. -/
theorem TrackedFile.growTo_congr {f f' : TrackedFile} (handle : f'.handle = f.handle) (n : Nat)
    (fs : FileSystem) :
    (f'.growTo n fs).1 = (f.growTo n fs).1 ∧ (f'.growTo n fs).2.2 = (f.growTo n fs).2.2 := by
  have sizes : (f'.refresh fs).len = (f.refresh fs).len := by
    simp only [TrackedFile.refresh, handle]
  have handles : (f'.refresh fs).handle = (f.refresh fs).handle := handle
  rw [growTo, growTo]
  simp only [sizes]
  split
  · exact ⟨rfl, rfl⟩
  · rw [setLength, setLength, handles]
    split <;> exact ⟨rfl, rfl⟩

namespace Region

variable {r : Region} {p p' : Platform} {f f' : TrackedFile} {setup : RegionSetup} {path : Path}
  {e : RegionError}

/-- A region is mapped where its file can be made long enough and the mapping is granted. -/
theorem remap_isOk (r : Region) (capacity : Nat) (p : Platform) : (r.remap capacity p).1.isOk =
    ((r.file.growTo capacity p.files).1.isOk &&
      (r.setup.mapper.map r.file.handle capacity
        { p with files := (r.file.growTo capacity p.files).2.2 }).1.isOk) := by
  have handle := (r.file.growTo_sameFile capacity p.files).handle
  unfold remap
  rcases growth : r.file.growTo capacity p.files with ⟨grown, file, files⟩
  rw [growth] at handle
  dsimp only at handle
  cases grown with
  | error e => rfl
  | ok =>
    dsimp only
    rw [handle]
    rcases mapping : r.setup.mapper.map r.file.handle capacity { p with files } with ⟨outcome, q⟩
    cases outcome <;> rfl

/-- A file is mapped or not on both of two platforms that are twins. -/
theorem ofTrackedFile_isOk (twin : p.Twin f.handle p') (handle : f'.handle = f.handle)
    (len : f'.len = f.len) (setup : RegionSetup) :
    (ofTrackedFile f' setup p').1.isOk = (ofTrackedFile f setup p).1.isOk := by
  have mapped (capacity : Nat) : ((unmappedOver f' setup).remap capacity p').1.isOk =
      ((unmappedOver f setup).remap capacity p).1.isOk := by
    obtain ⟨answer, files⟩ := TrackedFile.growTo_congr handle capacity p'.files
    obtain ⟨answer', grown⟩ := twin.growTo f.len capacity
    obtain ⟨granted, -⟩ := setup.mapper.map_twin grown f.handle capacity
    rw [remap_isOk, remap_isOk]
    dsimp only [unmappedOver]
    rw [answer, files, handle, answer', granted]
  unfold ofTrackedFile
  rw [len]
  cases sizes : initialSizes setup f.len with
  | error e => rfl
  | ok both =>
    obtain ⟨capacity, used⟩ := both
    obtain ⟨rfl, -, -⟩ := initialSizes_eq_ok sizes
    dsimp only
    split
    · rfl
    · have same := mapped capacity
      rw [unmappedOver, unmappedOver, len] at same
      split <;> rename_i remapping <;> rw [remapping] at same <;>
        split <;> rename_i remapping <;> rw [remapping] at same <;> exact same

/-! ## What is left -/

/-- A region without a mapping is closed by trimming its file. -/
theorem platform_close (isOpen : r.closed = false) (unmapped : r.mapped = none)
    (trims : r.setup.trimOnClose = true) :
    (r.close p).2.2 = { p with files := (r.file.trimTo r.used p.files).2.2 } := by
  have detached : ({ r with closed := true } : Region).detach p = (.ok (), { r with closed := true }, p) := by
    simp only [detach, unmapped]
  rw [close, if_neg (by simp [isOpen]), detached]
  dsimp only [trim]
  rw [if_pos trims]
  rcases r.file.trimTo r.used p.files with ⟨_ | _, file, files⟩ <;> rfl

/-- A file that could not be mapped is trimmed to what it was. -/
theorem ofTrackedFile_error (writable : f.handle.writable = true)
    (known : f.len = (p.files.file f.handle.file).size) (trims : setup.trimOnClose = true)
    (failed : ofTrackedFile f setup p = (.error e, p')) :
    p.Alike f.handle p' ∧ (p'.files.file f.handle.file).size = (p.files.file f.handle.file).size := by
  rw [ofTrackedFile] at failed
  cases sizes : initialSizes setup f.len with
  | error e =>
    rw [sizes] at failed
    cases failed
    exact ⟨.refl .., rfl⟩
  | ok both =>
    obtain ⟨capacity, used⟩ := both
    obtain ⟨rfl, covers, addressable⟩ := initialSizes_eq_ok sizes
    simp only [sizes] at failed
    split at failed
    · cases failed
    · rcases remapping : (unmappedOver f setup).remap capacity p with ⟨outcome, r, q⟩
      have remapping' := remapping
      rw [unmappedOver] at remapping'
      rw [remapping'] at failed
      cases outcome with
      | ok => cases failed
      | error e =>
        cases failed
        obtain ⟨region, alike⟩ := remap_alike remapping
        have alike : p.Alike f.handle q := alike
        have isOpen : r.closed = false := by rw [region]; rfl
        have unmapped : r.mapped = none := by rw [region]; rfl
        have used : r.used = (p.files.file f.handle.file).size := by rw [region]; exact known
        have handle : r.file.handle = f.handle := by rw [region]; rfl
        have trims : r.setup.trimOnClose = true := by rw [region]; exact trims
        rw [platform_close isOpen unmapped trims, used]
        have bounded : (p.files.file f.handle.file).size < (q.files.file f.handle.file).size →
            (p.files.file f.handle.file).size ≤ FileSystem.maxFile := fun longer =>
          Nat.le_trans (Nat.le_of_lt longer) (alike.lengthened longer).2
        rw [← handle] at writable bounded known alike ⊢
        exact alike.trimmed writable (known ▸ Nat.le_trans covers addressable) bounded

/-- A region of a path that can not be opened leaves no file changed, but for an empty one that was made. -/
theorem open_error (trims : setup.trimOnClose = true) (failed : Region.open path setup p = (.error e, p')) :
    p.Restored path p' := by
  rw [Region.open] at failed
  obtain ⟨h, leads, writable, opening⟩ | ⟨holder, name, vacant, opening⟩ | ⟨e', opening⟩ :=
    p.files.openOrCreate_cases path
  · rw [opening] at failed
    obtain ⟨alike, size⟩ := ofTrackedFile_error writable rfl trims failed
    exact .kept leads alike size
  · rw [opening] at failed
    have empty : (p.files.addFile holder name .empty).file p.files.nextFile = .empty :=
      FileSystem.file_setFile_self ..
    have size : ((p.files.addFile holder name .empty).file p.files.nextFile).size = 0 := by rw [empty]; rfl
    obtain ⟨alike, same⟩ := ofTrackedFile_error (p := { p with files := p.files.addFile holder name .empty })
      rfl size.symm trims failed
    exact .made vacant alike (same.trans size)
  · rw [opening] at failed
    cases failed
    exact .unchanged rfl

end Region

namespace Platform.Restored

open Region

variable {path : Path} {p p' : Platform}

/-! ## Opening again -/

/-- Where the same calls succeed a region is opened if it would have been before. -/
theorem open_isOk (restored : p.Restored path p') (setup : RegionSetup) (plan : CallPlan) :
    (Region.open path setup { p' with plan }).1.isOk = (Region.open path setup { p with plan }).1.isOk := by
  cases restored with
  | unchanged same => rw [same]
  | @kept h leads alike size =>
    have leads' := (alike.names.openExisting path true).trans leads
    have len : (TrackedFile.ofHandle p'.files h path).len = (TrackedFile.ofHandle p.files h path).len := size
    rw [Region.open, Region.open, FileSystem.openOrCreate_of_leads leads,
      FileSystem.openOrCreate_of_leads leads']
    exact ofTrackedFile_isOk (alike.withPlan plan) (by rfl) len setup
  | made vacant alike size =>
    have correct := p.files.openOrCreate_correct path
    have opening := FileSystem.openOrCreate_of_vacant vacant
    rw [opening] at correct
    have leads' := (alike.names.openExisting path true).trans correct.2.2.2.1
    have len : (TrackedFile.ofHandle p'.files ⟨p.files.nextFile, true⟩ path).len =
        (⟨⟨p.files.nextFile, true⟩, path, 0, true⟩ : TrackedFile).len := size
    rw [Region.open, Region.open, opening, FileSystem.openOrCreate_of_leads leads']
    exact ofTrackedFile_isOk (alike.withPlan plan) (by rfl) len setup

theorem bytesAt_eq (restored : p.Restored path p') : p'.files.bytesAt path = p.files.bytesAt path := by
  cases restored with
  | unchanged same => rw [same]
  | kept leads alike size =>
    have leads' := (alike.names.openExisting path true).trans leads
    rw [FileSystem.bytesAt, FileSystem.bytesAt, leads, leads']
    exact (alike.file.holds size).contents
  | made vacant alike size =>
    have correct := p.files.openOrCreate_correct path
    rw [FileSystem.openOrCreate_of_vacant vacant] at correct
    have leads' := (alike.names.openExisting path true).trans correct.2.2.2.1
    rw [FileSystem.bytesAt_of_vacant vacant, FileSystem.bytesAt, leads']
    exact Array.eq_empty_of_size_eq_zero ((File.size_contents _).trans size)

end Platform.Restored
end MappedStorage
