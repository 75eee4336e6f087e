import MappedStorage.Proofs.System.Lengths

/-!
Places that are vacant. Where the name of a file is removed, its path leads to a vacant place
(`exists_vacant_of_unlink`), and goes on to do so as long as no path is opened that leads there too
(`resolve_openOrCreate_of_vacant`). A file that is then made for the path is new and empty
(`openOrCreate_of_vacant`).
-/

namespace MappedStorage.FileSystem

/-- A path leads to where a file may be made. -/
def IsVacant (fs : FileSystem) (path : Path) : Prop :=
  ∃ holder name, fs.resolve .create path = .ok (.vacant holder name)

variable {fs : FileSystem} {path other : Path} {holder holder' : DirectoryId} {name name' : Name}
  {id : FileId} {links : Nat} {here : DirectoryId} {steps : List (List UInt8)} {slashed : Bool}

/-! ## Walks -/

/-- Where a file may be made there is nothing to be found. -/
theorem walk_reach_of_vacant
    (vacant : fs.walk .create links here steps slashed = .ok (.vacant holder name)) :
    fs.walk .reach links here steps slashed = .ok (.vacant holder name) := by
  fun_induction walk fs .create links here steps slashed <;> rw [walk] <;> grind

/-- No slash comes after a file. -/
theorem not_slashed_of_walk
    (found : fs.walk .inspect links here steps slashed = .ok (.file holder name id)) :
    slashed = false := by
  fun_induction walk fs .inspect links here steps slashed <;> grind

theorem walk_rename_of_inspect
    (found : fs.walk .inspect links here steps slashed = .ok (.file holder name id)) :
    fs.walk .rename links here steps slashed = .ok (.file holder name id) := by
  have plain := not_slashed_of_walk found
  fun_induction walk fs .inspect links here steps slashed <;> rw [walk] <;> grind

/-- The name of a file is met at the last step of a walk only, so without it the walk ends there too. -/
theorem walk_create_setEntry_none
    (found : fs.walk .inspect links here steps slashed = .ok (.file holder name id)) :
    (fs.setEntry holder name none).walk .create links here steps slashed =
      .ok (.vacant holder name) := by
  have plain := not_slashed_of_walk found
  have there := lookup_of_walk_file found
  fun_induction walk fs .inspect links here steps slashed <;> rw [walk] <;>
    grind [lookup_setEntry, parent_directory_setEntry]

/-- A walk to a vacant place does not meet another one on its way. -/
theorem walk_create_setEntry_of_vacant (free : fs.lookup holder' name' = none) (entry : Entry)
    (away : ¬ (holder' = holder ∧ name' = name))
    (vacant : fs.walk .create links here steps slashed = .ok (.vacant holder name)) :
    (fs.setEntry holder' name' (some entry)).walk .create links here steps slashed =
      .ok (.vacant holder name) := by
  fun_induction walk fs .create links here steps slashed <;> rw [walk] <;>
    grind [lookup_setEntry, parent_directory_setEntry]

/-! ## Paths -/

/-- The name of a file can be removed, and leaves a vacant place. -/
theorem exists_vacant_of_unlink (there : fs.linkStat path = .ok (.file id)) :
    ∃ holder name, fs.unlink path = .ok (fs.setEntry holder name none) ∧
      (fs.setEntry holder name none).resolve .create path = .ok (.vacant holder name) := by
  rw [linkStat, entryAt] at there
  cases resolved : fs.resolve .inspect path with
  | error e =>
    rw [resolved] at there
    cases there
  | ok place =>
    rw [resolved] at there
    cases place with
    | directory d => cases there
    | link holder name target => cases there
    | vacant holder name => cases there
    | file holder name id' =>
      have renamed : fs.resolve .rename path = .ok (.file holder name id') :=
        resolve_of_walk resolved rfl fun _ _ _ _ => walk_rename_of_inspect
      refine ⟨holder, name, ?_, resolve_of_walk resolved rfl fun _ _ _ _ => walk_create_setEntry_none⟩
      have plain : isSlashed path = false := by
        rw [resolve] at resolved
        repeat' split at resolved
        · cases resolved
        · cases resolved
        · cases resolved
        · rename_i walked
          cases resolved
          exact not_slashed_of_walk walked
        · cases resolved
      rw [unlink, renamed]
      dsimp only
      rw [plain]
      rfl

section

variable (vacant : fs.resolve .create path = .ok (.vacant holder name))

include vacant

theorem resolve_reach_of_vacant : fs.resolve .reach path = .ok (.vacant holder name) :=
  resolve_of_walk vacant rfl fun _ _ _ _ => walk_reach_of_vacant

theorem openExisting_of_vacant (writable : Bool) :
    fs.openExisting path writable = .error (.os Errno.noEntry) := by
  rw [openExisting, resolve_reach_of_vacant vacant]

theorem isPresent_of_vacant : fs.isPresent path = false := by
  rw [isPresent, stat, entryAt, resolve_reach_of_vacant vacant]
  rfl

/-- A file that is made at a vacant place is new and empty. -/
theorem openOrCreate_of_vacant : TrackedFile.openOrCreate fs path =
    (.ok ⟨⟨fs.nextFile, true⟩, path, 0, true⟩, fs.addFile holder name .empty) := by
  have made : (fs.addFile holder name .empty).file fs.nextFile = .empty := file_setFile_self ..
  rw [TrackedFile.openOrCreate, openExisting_of_vacant vacant]
  dsimp only
  rw [if_pos rfl, openOrCreate, vacant]
  simp only [TrackedFile.ofHandle, length, made]
  rfl

theorem target?_of_vacant : fs.target? path = some fs.nextFile := by
  rw [target?, openOrCreate_of_vacant vacant]
  rfl

theorem bytesAt_of_vacant : fs.bytesAt path = #[] := by
  rw [bytesAt, openExisting_of_vacant vacant]

/-- A place remains vacant when another one is opened. -/
theorem resolve_openOrCreate_of_vacant (away : fs.resolve .create other ≠ fs.resolve .create path) :
    (TrackedFile.openOrCreate fs other).2.resolve .create path = .ok (.vacant holder name) := by
  rw [TrackedFile.openOrCreate]
  split
  · exact vacant
  · split
    · rw [openOrCreate]
      cases resolved : fs.resolve .create other with
      | error e => exact vacant
      | ok place =>
        cases place with
        | directory d => exact vacant
        | link holder' name' target => exact vacant
        | file holder' name' id' => exact vacant
        | vacant holder' name' =>
          have free := lookup_of_resolve resolved
          have different : ¬ (holder' = holder ∧ name' = name) := by
            rintro ⟨rfl, rfl⟩
            exact away (resolved.trans vacant.symm)
          show (fs.addFile holder' name' .empty).resolve .create path = .ok (.vacant holder name)
          rw [resolve_addFile]
          exact resolve_of_walk vacant rfl fun _ _ _ _ =>
            walk_create_setEntry_of_vacant free _ different
    · exact vacant

end

/-- The ways in which opening a file for writing goes. -/
theorem openOrCreate_cases (fs : FileSystem) (path : Path) :
    (∃ h, fs.openExisting path true = .ok h ∧ h.writable = true ∧
      TrackedFile.openOrCreate fs path = (.ok (.ofHandle fs h path), fs)) ∨
    (∃ holder name, fs.resolve .create path = .ok (.vacant holder name) ∧
      TrackedFile.openOrCreate fs path =
        (.ok ⟨⟨fs.nextFile, true⟩, path, 0, true⟩, fs.addFile holder name .empty)) ∨
    ∃ e, TrackedFile.openOrCreate fs path = (.error e, fs) := by
  cases existing : fs.openExisting path true with
  | ok h =>
    obtain ⟨holder, name, id, -, rfl⟩ := openExisting_eq_ok_iff.mp existing
    exact .inl ⟨_, rfl, rfl, openOrCreate_of_leads existing⟩
  | error e =>
    by_cases isVacant : fs.IsVacant path
    · obtain ⟨holder, name, vacant⟩ := isVacant
      exact .inr (.inl ⟨holder, name, vacant, openOrCreate_of_vacant vacant⟩)
    · refine .inr (.inr ?_)
      rw [TrackedFile.openOrCreate, existing]
      dsimp only
      split
      · cases resolved : fs.resolve .create path with
        | error e => exact ⟨e, by rw [FileSystem.openOrCreate, resolved]⟩
        | ok place =>
          cases place with
          | directory id | link holder name target => exact ⟨_, by rw [FileSystem.openOrCreate, resolved]⟩
          | file holder name id =>
            have reached := resolve_of_walk resolved rfl fun _ _ _ _ => walk_reach_of_create
            have present := openExisting_eq_ok_iff.mpr ⟨holder, name, id, reached, rfl⟩
            cases existing.symm.trans present
          | vacant holder name => exact absurd ⟨holder, name, resolved⟩ isVacant
      · exact ⟨e, rfl⟩

end MappedStorage.FileSystem
