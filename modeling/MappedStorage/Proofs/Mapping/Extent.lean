import MappedStorage.Proofs.Mapping.Lifetime
import MappedStorage.Proofs.System.Lengths

/-!
How far a region reaches. While it is open neither its capacity nor its used length goes back
(`Region.Later`), and what is done through it makes no file shorter (`Region.Advanced`), so that every
other region over the same file stays sound. A file gets shorter when a region is closed and trimmed,
and in no other way (`Region.Ended`).
-/

namespace MappedStorage

theorem Platform.OnlyFile.lengthens {p p' : Platform} {id : FileId} (only : p.OnlyFile id p')
    (size_le : (p.files.file id).size ≤ (p'.files.file id).size) :
    p.files.Lengthens p'.files := by
  refine only.names.lengthens ?_
  intro other
  by_cases here : other = id
  · rw [here]
    exact size_le
  · rw [only.others other here]

namespace Region

/-- A region at a later time. -/
structure Later (r r' : Region) : Prop where
  same : r.SameRegion r'
  capacity : r.capacity ≤ r'.capacity
  used : r.used ≤ r'.used

/-- What is done through a region: it may have grown, no file is shorter, and other files stay. -/
structure Advanced (r : Region) (p : Platform) (r' : Region) (p' : Platform) : Prop extends
    r.Later r' where
  sound : r'.Sound p'
  longer : p.files.Lengthens p'.files
  onlyFile : p.OnlyFile r.fileId p'

/-- What closing a region does to files: its own may be shorter if the region is trimmed. -/
structure Ended (r : Region) (p p' : Platform) : Prop where
  onlyFile : p.OnlyFile r.fileId p'
  untrimmed : r.setup.trimOnClose = false → p'.files = p.files

/-- A region that was opened over a file that is there. -/
structure Began (path : Path) (setup : RegionSetup) (p : Platform) (r : Region) (p' : Platform) :
    Prop where
  sound : r.Sound p'
  made : r.fileId < p'.files.nextFile
  target : p.files.target? path = some r.fileId
  setup_eq : r.setup = setup

variable {r r' r'' : Region} {p p' p'' : Platform}

theorem Later.refl (r : Region) : r.Later r := ⟨.refl r, Nat.le_refl _, Nat.le_refl _⟩

theorem Later.trans (first : r.Later r') (second : r'.Later r'') : r.Later r'' :=
  ⟨first.same.trans second.same, Nat.le_trans first.capacity second.capacity,
    Nat.le_trans first.used second.used⟩

theorem Advanced.refl (sound : r.Sound p) : r.Advanced p r p :=
  ⟨.refl r, sound, .refl _, .refl ..⟩

theorem Advanced.trans (first : r.Advanced p r' p') (second : r'.Advanced p' r'' p'') :
    r.Advanced p r'' p'' :=
  ⟨first.toLater.trans second.toLater, second.sound, first.longer.trans second.longer,
    first.onlyFile.trans (first.same.fileId_eq ▸ second.onlyFile)⟩

/-- A region stays sound as long as its file gets no shorter. -/
theorem Sound.of_lengthens (sound : r.Sound p) (made : r.fileId < p.files.nextFile)
    (longer : p.files.Lengthens p'.files) : r.Sound p' :=
  { sound with capacity_le := Nat.le_trans sound.capacity_le (longer.size_le r.fileId made) }

/-! ## Operations -/

theorem reserve_advanced {least : Nat} {result : Except RegionError Unit} (sound : r.Sound p)
    (reserved : r.reserve least p = (result, r', p')) : r.Advanced p r' p' := by
  obtain ⟨grown, sound', larger, -⟩ := reserve_correct sound reserved
  refine ⟨⟨grown.same, larger, Nat.le_of_eq grown.used.symm⟩, sound', ?_, grown.onlyFile⟩
  exact grown.onlyFile.lengthens grown.longer.size_le

theorem write_advanced {offset : Nat} {data : Bytes} {result : Except RegionError Span}
    (sound : r.Sound p) (wrote : r.write offset data p = (result, r', p')) :
    r.Advanced p r' p' := by
  obtain ⟨kept, sound', larger, correct⟩ := write_correct sound wrote
  have backing := kept.same.backing_eq p'
  cases result with
  | error e =>
    obtain ⟨_, _, _, used, longer⟩ := correct
    refine ⟨⟨kept.same, larger, Nat.le_of_eq used.symm⟩, sound', kept.onlyFile.lengthens ?_,
      kept.onlyFile⟩
    rw [← backing]
    exact longer.size_le
  | ok written =>
    obtain ⟨_, ⟨_, rfl, rfl⟩ | ⟨_, _, used, f, longer, overlaid⟩⟩ := correct
    · exact .refl sound
    · refine ⟨⟨kept.same, larger, ?_⟩, sound', kept.onlyFile.lengthens ?_, kept.onlyFile⟩
      · rw [used]
        exact Nat.le_max_left ..
      · rw [← backing, overlaid, File.size_overlay]
        exact longer.size_le

theorem Settled.advanced (settled : r.Settled p p') (sound : r.Sound p) : r.Advanced p r p' := by
  refine ⟨.refl r, settled.sound sound, settled.onlyFile.lengthens ?_, settled.onlyFile⟩
  exact Nat.le_of_eq settled.flushed.size_eq.symm

/-- Flushing leaves every length, whatever is mapped. -/
theorem flush_lengthens (r : Region) (f : Flush) (p : Platform) :
    p.files.Lengthens (r.flush f p).2.files := by
  obtain ⟨_, flushed⟩ | ⟨m, first, count, failure, p', _, _, _, call, flushed⟩ := r.flush_cases f p
  · rw [flushed]
    exact .refl _
  · have only := p.flush_onlyFile f.medium m first count
    have durable := p.flush_flushed f.medium m first count
    rw [call] at only durable
    rw [flushed]
    exact only.lengthens (Nat.le_of_eq durable.size_eq.symm)

theorem countUsed_advanced (sound : r.Sound p) (len : Nat) : r.Advanced p (r.countUsed len) p := by
  have used_le : max r.used (min len r.capacity) ≤ r.capacity :=
    Nat.max_le.mpr ⟨sound.used_le, Nat.min_le_right ..⟩
  refine ⟨⟨⟨rfl, rfl, rfl, rfl⟩, Nat.le_refl _, Nat.le_max_left ..⟩, ?_, .refl _, .refl ..⟩
  exact { sound with used_le }

/-- Bytes stored through a mapping leave every length. -/
theorem store_lengthens (p : Platform) (m : Mapping) (offset : Nat) (data : Bytes) :
    p.files.Lengthens (p.store m offset data).files := by
  refine p.files.lengthens_setFile ?_
  rw [File.size_overlay]

/-! ## Beginning and end -/

theorem trim_ended (r : Region) (p : Platform) : r.Ended p (r.trim p).2.2 := by
  have same := r.file.trimTo_sameFile r.used p.files
  rw [trim]
  by_cases due : r.setup.trimOnClose = true
  · rw [if_pos due]
    rcases cut : r.file.trimTo r.used p.files with ⟨outcome, file, files⟩
    rw [cut] at same
    have only : p.OnlyFile r.fileId { p with files } := ⟨same.names, same.others, fun _ _ => .refl _⟩
    cases outcome <;> exact ⟨only, fun never => absurd due (by simp [never])⟩
  · rw [if_neg due]
    exact ⟨.refl .., fun _ => rfl⟩

theorem close_ended (shows : ∀ m ∈ r.mapped, m.file = r.fileId) : r.Ended p (r.close p).2.2 := by
  rw [close]
  split
  · exact ⟨.refl .., fun _ => rfl⟩
  · rcases detaching : ({ r with closed := true } : Region).detach p with ⟨detached, s, q⟩
    obtain ⟨rfl, files, only, _⟩ := detach_correct (r := { r with closed := true }) shows detaching
    obtain ⟨trimmed, untrimmed⟩ := trim_ended { r with closed := true, mapped := none } q
    rw [files] at untrimmed
    cases detached <;> exact ⟨only.trans trimmed, untrimmed⟩

/-- Opening a region, whether or not it succeeds, makes no file shorter: where mapping fails after the
file was made longer, it is cut to what it was. -/
theorem open_began {path : Path} {setup : RegionSetup} {result : Except RegionError Region}
    (tidy : p.files.Tidy) (opened : Region.open path setup p = (result, p')) :
    p.files.Lengthens p'.files ∧ ∀ r, result = .ok r → Began path setup p r p' := by
  have made := p.files.openOrCreate_lengthens path
  have correct := p.files.openOrCreate_correct path
  rw [Region.open] at opened
  rcases opening : TrackedFile.openOrCreate p.files path with ⟨found, files⟩
  rw [opening] at made correct opened
  cases found with
  | error e =>
    cases opened
    refine ⟨made, ?_⟩
    rintro r ⟨⟩
  | ok f =>
    obtain ⟨_, writable, known, leads, _, _⟩ := correct
    obtain ⟨only, correct⟩ := ofTrackedFile_correct (p := { p with files }) writable known opened
    refine ⟨made.trans (only.lengthens ?_), ?_⟩
    · cases result with
      | ok r =>
        have here : r.fileId = f.handle.file := congrArg Handle.file correct.handle
        have longer := correct.longer.size_le
        rwa [Region.backing, here] at longer
      | error e =>
        obtain ⟨g, longer, same | cut⟩ := correct.left
        · rw [same]
          exact longer.size_le
        · rw [cut, File.size_resize]
    · rintro r rfl
      have here : r.fileId = f.handle.file := congrArg Handle.file correct.handle
      refine ⟨correct.clear.toSound, ?_, ?_, correct.setup_eq⟩
      · rw [here, only.names.nextFile]
        exact (made.tidy tidy).made leads
      · rw [FileSystem.target?, opening, here]
        rfl

end Region
end MappedStorage
