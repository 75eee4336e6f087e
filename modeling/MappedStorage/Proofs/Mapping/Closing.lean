import Mathlib.Data.List.Perm.Basic
import MappedStorage.Proofs.Mapping.Region

/-!
What closing a region does to a platform, whichever of its calls fail: the mapping is taken down, and the file is
trimmed if the region says so (`Region.close_platform`). A region shows the same as long as the files that it has
mapped stay (`Region.ShowsSame.readInto`).
-/

namespace MappedStorage.Region

/-- The files once that of a region is trimmed. -/
def trimmedFiles (r : Region) (fs : FileSystem) : FileSystem :=
  if r.setup.trimOnClose then (r.file.trimTo r.used fs).2.2 else fs

/-- The files that a region has mapped are the same on two platforms. -/
def ShowsSame (r : Region) (p p' : Platform) : Prop :=
  ∀ m ∈ r.mapped, p'.files.file m.file = p.files.file m.file

variable {r : Region} {p p' : Platform} {fs : FileSystem}

/-! ## Closing -/

theorem trimmedFiles_sameFile (r : Region) (fs : FileSystem) : fs.SameNames (r.trimmedFiles fs) ∧
    ∀ id, id ≠ r.fileId → (r.trimmedFiles fs).file id = fs.file id := by
  have same := r.file.trimTo_sameFile r.used fs
  rw [trimmedFiles]
  split
  · exact ⟨same.names, same.others⟩
  · exact ⟨.refl fs, fun _ _ => rfl⟩

theorem trimmedFiles_of_untrimmed (untrimmed : r.setup.trimOnClose = false) (fs : FileSystem) :
    r.trimmedFiles fs = fs := by
  rw [trimmedFiles, if_neg (by simp [untrimmed])]

theorem trim_platform (r : Region) (p : Platform) :
    (r.trim p).2.2 = { p with files := r.trimmedFiles p.files } := by
  rw [trim, trimmedFiles]
  split
  · rcases r.file.trimTo r.used p.files with ⟨_ | _, file, files⟩ <;> rfl
  · rfl

theorem detach_platform (r : Region) (p : Platform) : (r.detach p).2.1 = { r with mapped := none } ∧
    (r.detach p).2.2.files = p.files ∧ (r.detach p).2.2.live = p.live.diff r.mapped.toList := by
  rw [detach]
  split
  · rename_i unmapped
    exact ⟨by rw [← unmapped], rfl, by rw [unmapped]; rfl⟩
  · rename_i m mapped
    have live : (p.unmap m).2.live = p.live.diff r.mapped.toList := by
      rw [mapped]
      exact (p.live.diff_cons [] m).symm
    rw [Mapper.unmap]
    rcases unmapping : p.unmap m with ⟨_ | errno, q⟩ <;> rw [unmapping] at live <;>
      exact ⟨rfl, congrArg (·.2.files) unmapping.symm, live⟩

/-- A region that is closed has its mapping taken down and its file trimmed. -/
theorem close_platform (isOpen : r.closed = false) (p : Platform) :
    (r.close p).2.2.files = r.trimmedFiles p.files ∧
      (r.close p).2.2.live = p.live.diff r.mapped.toList := by
  obtain ⟨region, files, live⟩ := ({ r with closed := true } : Region).detach_platform p
  rw [close, if_neg (by simp [isOpen])]
  rcases detaching : ({ r with closed := true } : Region).detach p with ⟨detached, s, q⟩
  rw [detaching] at region files live
  dsimp only at region files live ⊢
  have both : (s.trim q).2.2.files = r.trimmedFiles p.files ∧
      (s.trim q).2.2.live = p.live.diff r.mapped.toList := by
    rw [s.trim_platform q, region]
    exact ⟨congrArg r.trimmedFiles files, live⟩
  cases detached <;> exact both

/-! ## What a region shows -/

namespace ShowsSame

theorem loadBytes (shows : r.ShowsSame p p') {m : Mapping} (mapped : r.mapped = some m) (offset len : Nat) :
    p'.loadBytes m offset len = p.loadBytes m offset len := by
  rw [Platform.loadBytes, Platform.loadBytes, shows m mapped]

theorem readInto (shows : r.ShowsSame p p') (offset : Nat) (buffer : Bytes) :
    r.readInto offset buffer p' = r.readInto offset buffer p := by
  unfold Region.readInto
  cases mapped : r.mapped with
  | none => rfl
  | some m => simp only [shows.loadBytes mapped]

theorem bytes? (shows : r.ShowsSame p p') (span : Span) : r.bytes? span p' = r.bytes? span p := by
  unfold Region.bytes?
  cases mapped : r.mapped with
  | none => rfl
  | some m => simp only [shows.loadBytes mapped]

theorem load (shows : r.ShowsSame p p') {span : Span} {words : WordView} (seen : r.words? span = some words)
    (i : Nat) : words.load i p' = words.load i p := by
  have mapped : r.mapped = some words.mapping := by
    rw [words?] at seen
    split at seen
    · split at seen
      · rename_i m mapped
        split at seen
        · cases seen
          exact mapped
        · cases seen
      · cases seen
    · cases seen
  simp only [WordView.load, Platform.load, shows _ mapped]

end ShowsSame
end MappedStorage.Region
