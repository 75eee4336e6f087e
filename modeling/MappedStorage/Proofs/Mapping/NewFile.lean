import MappedStorage.Proofs.Mapping.Lifetime
import MappedStorage.Proofs.System.Vacancy

/-!
Regions over new files. Where a path leads to a vacant place and there is room for a region
(`Region.HasRoom`), opening one makes the file and succeeds (`Region.open_of_vacant`).
-/

namespace MappedStorage

variable {p : Platform} {h : Handle} {len : Nat}

/-- A request for a mapping does not look at the files. -/
theorem Platform.map_files (files : FileSystem) (sharing : Sharing) :
    Platform.map { p with files } h len sharing =
      ((p.map h len sharing).1, { (p.map h len sharing).2 with files }) := by
  rw [Platform.map, Platform.map]
  dsimp only
  rcases planned p.plan sharing with ⟨o, plan⟩
  dsimp only
  cases decide plan h len (AddressSpace.place len (p.live.map Mapping.range)) o <;> rfl

namespace Mapper

theorem attempt_files (files : FileSystem) (sharing : Sharing) :
    attempt h len sharing { p with files } =
      ((attempt h len sharing p).1, { (attempt h len sharing p).2 with files }) := by
  rw [attempt, attempt, Platform.map_files]
  rcases p.map h len sharing with ⟨(_ | _) | _, q⟩ <;> rfl

theorem mapPlain_files (m : Mapper) (files : FileSystem) : m.mapPlain h len { p with files } =
    ((m.mapPlain h len p).1, { (m.mapPlain h len p).2 with files }) := by
  rw [mapPlain, mapPlain, attempt_files]
  rcases attempt h len .plain p with ⟨_ | _, q⟩ <;> rfl

theorem map_files (m : Mapper) (files : FileSystem) : m.map h len { p with files } =
    ((m.map h len p).1, { (m.map h len p).2 with files }) := by
  rw [map, map]
  split
  · rfl
  · split
    · rw [attempt_files]
      rcases attempt h len .synchronous p with ⟨e | _, q⟩
      · dsimp only
        split
        · exact m.mapPlain_files files
        · rfl
      · rfl
    · exact m.mapPlain_files files

end Mapper

namespace Region

/-- There is room for the region of a new file: its capacity can be computed, a file can be as long, and
the mapping of it is granted. -/
def HasRoom (setup : RegionSetup) (p : Platform) : Prop :=
  ∃ capacity, setup.growth.align setup.initialCapacity = .ok capacity ∧
    capacity ≤ FileSystem.maxFile ∧
    (0 < capacity → (setup.mapper.map ⟨p.files.nextFile, true⟩ capacity p).1.isOk = true)

theorem open_of_vacant {path : Path} {setup : RegionSetup} {holder : DirectoryId} {name : Name}
    (vacant : p.files.resolve .create path = .ok (.vacant holder name)) (room : HasRoom setup p) :
    (Region.open path setup p).1.isOk = true := by
  obtain ⟨capacity, aligned, bound, granted⟩ := room
  obtain ⟨_, addressable⟩ := GrowthRule.align_eq_ok_iff.mp aligned
  have sizes : initialSizes setup 0 = .ok (capacity, 0) := by
    rw [initialSizes, if_neg (Nat.lt_irrefl 0), aligned]
    rfl
  have made : (p.files.addFile holder name .empty).file p.files.nextFile = .empty :=
    FileSystem.file_setFile_self ..
  rw [Region.open, FileSystem.openOrCreate_of_vacant vacant]
  dsimp only
  rw [ofTrackedFile, sizes]
  dsimp only
  by_cases nothing : capacity = 0
  · rw [if_pos nothing]
    rfl
  · have positive := Nat.pos_of_ne_zero nothing
    have set := (p.files.addFile holder name .empty).setLength_ok
      (h := ⟨p.files.nextFile, true⟩) rfl addressable bound
    obtain ⟨⟨m, medium⟩, q, mapped⟩ := exists_of_isOk (granted positive)
    rw [if_neg nothing, remap, TrackedFile.growTo, TrackedFile.refresh]
    dsimp only
    have empty : ¬ capacity ≤ (p.files.addFile holder name .empty).length ⟨p.files.nextFile, true⟩ := by
      rw [FileSystem.length, made]
      exact Nat.not_le.mpr positive
    rw [if_neg empty, TrackedFile.setLength]
    dsimp only
    rw [set]
    dsimp only
    rw [Mapper.map_files (p := p), mapped]
    rfl

end Region
end MappedStorage
