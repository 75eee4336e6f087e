import MappedStorage.Proofs.Mapping.Region

/-!
How a region begins and ends. Opening one finds the bytes of the file of its path, and touches no other
file whether or not it succeeds (`open_correct`); closing it cuts the file to the used bytes if the
region is to be trimmed (`close_correct`), so that these are left (`Closed.contents`).
-/

namespace MappedStorage.Region

variable {r r' : Region} {p p' : Platform}

/-! ## Closing -/

/-- What closing a region does, whether or not it succeeds: its mapping is gone, and its file is cut
to the used length if the region is to be trimmed. -/
structure Closed (r : Region) (p p' : Platform) : Prop where
  onlyFile : p.OnlyFile r.fileId p'
  unmapped : (p.mappingsOf r.fileId).Perm r.mapped.toList → p'.mappingsOf r.fileId = []
  trimmed : r.backing p' = if r.setup.trimOnClose = true ∧ r.used < (r.backing p).size then
    (r.backing p).resize r.used else r.backing p

/-- Taking the mapping down changes no file. -/
theorem detach_correct {result : Except RegionError Unit} (shows : ∀ m ∈ r.mapped, m.file = r.fileId)
    (detached : r.detach p = (result, r', p')) :
    r' = { r with mapped := none } ∧ p'.files = p.files ∧ p.OnlyFile r.fileId p' ∧
      ((p.mappingsOf r.fileId).Perm r.mapped.toList → p'.mappingsOf r.fileId = []) := by
  rw [detach] at detached
  split at detached
  · rename_i mapped
    cases detached
    refine ⟨by rw [← mapped], rfl, .refl .., fun only => ?_⟩
    rw [mapped] at only
    exact only.eq_nil
  · rename_i m mapped
    have files := Mapper.unmap_files m p
    have only := shows m mapped ▸ Mapper.unmap_onlyFile m p
    have left := Mapper.unmap_mappingsOf m p r.fileId
    have unmapped (only : (p.mappingsOf r.fileId).Perm r.mapped.toList) :
        (Mapper.unmap m p).2.mappingsOf r.fileId = [] := by
      rw [mapped] at only
      rw [left, List.perm_singleton.mp only, List.erase_cons_head]
    split at detached <;> rename_i call <;> cases detached <;> rw [call] at files only unmapped <;>
      exact ⟨rfl, files, only, unmapped⟩

/-- Trimming succeeds where the used length is one that a file can have. -/
theorem trim_correct {result : Except RegionError Unit} (writable : r.file.handle.writable = true)
    (addressable : r.used ≤ Word.addressable)
    (bounded : r.used < (r.backing p).size → r.used ≤ FileSystem.maxFile)
    (trimmed : r.trim p = (result, r', p')) :
    p'.live = p.live ∧ p.OnlyFile r.fileId p' ∧
      r.backing p' = if r.setup.trimOnClose = true ∧ r.used < (r.backing p).size then
        (r.backing p).resize r.used else r.backing p := by
  have same := r.file.trimTo_sameFile r.used p.files
  have file := (r.file.trimTo_file writable addressable bounded).2
  rw [trim] at trimmed
  by_cases due : r.setup.trimOnClose = true
  · rw [if_pos due] at trimmed
    rcases cut : r.file.trimTo r.used p.files with ⟨outcome, f, files⟩
    rw [cut] at trimmed same file
    simp only [due, true_and]
    have only : p.OnlyFile r.fileId { p with files } := ⟨same.names, same.others, fun _ _ => .refl _⟩
    cases outcome <;> cases trimmed <;> exact ⟨rfl, only, file⟩
  · rw [if_neg due] at trimmed
    cases trimmed
    exact ⟨rfl, .refl .., by rw [if_neg (by simp [due])]⟩

theorem close_correct {result : Except RegionError Unit} (isOpen : r.closed = false)
    (writable : r.file.handle.writable = true) (shows : ∀ m ∈ r.mapped, m.file = r.fileId)
    (addressable : r.used ≤ Word.addressable)
    (bounded : r.used < (r.backing p).size → r.used ≤ FileSystem.maxFile)
    (closed : r.close p = (result, r', p')) : r.Closed p p' := by
  rw [close, if_neg (by simp [isOpen])] at closed
  rcases detaching : ({ r with closed := true } : Region).detach p with ⟨detached, s, q⟩
  obtain ⟨rfl, files, only, unmapped⟩ :=
    detach_correct (r := { r with closed := true }) shows detaching
  rcases trimming : ({ r with closed := true, mapped := none } : Region).trim q with ⟨trimmed, u, p''⟩
  have backing : r.backing q = r.backing p := by rw [Region.backing, files]; rfl
  obtain ⟨live, cut_only, cut⟩ :=
    trim_correct (r := { r with closed := true, mapped := none }) writable addressable
      (fun slack => bounded (backing ▸ slack)) trimming
  have done : p' = p'' := by
    rw [detaching] at closed
    dsimp only at closed
    rw [trimming] at closed
    cases detached <;> cases closed <;> rfl
  subst done
  refine ⟨only.trans cut_only, fun one => ?_, ?_⟩
  · rw [Platform.mappingsOf, live]
    exact unmapped one
  · rw [← backing]
    exact cut

theorem Clear.close_closed (clear : r.Clear p) : r.Closed p (r.close p).2.2 :=
  close_correct clear.isOpen clear.writable clear.shows clear.used_le_addressable
    (fun slack => Nat.le_trans (Nat.le_of_lt slack) (clear.bounded slack)) rfl

theorem Alone.close_closed (alone : r.Alone p) : r.Closed p (r.close p).2.2 := alone.clear.close_closed

/-- The file of a region holds the used bytes and then zeros. -/
theorem Clear.contents (clear : r.Clear p) : (r.backing p).contents =
    r.validBytes p ++ Array.replicate ((r.backing p).size - r.used) 0 := by
  have within := clear.used_le_size
  have used := size_validBytes clear.toSound
  refine bytes_ext (by rw [File.size_contents, Array.size_append, Array.size_replicate, used]; omega)
    fun i inside => ?_
  rw [File.size_contents] at inside
  rw [File.getD_contents, if_pos inside, Array.getD_eq_getD_getElem?, Array.getElem?_append, used]
  by_cases valid : i < r.used
  · rw [if_pos valid, ← Array.getD_eq_getD_getElem?, getD_validBytes clear.toSound, if_pos valid]
  · rw [if_neg valid, clear.zeros i (Nat.le_of_not_lt valid) inside, Array.getElem?_replicate]
    split <;> rfl

/-- A region leaves the used bytes and the zeros after them, and nothing else if it is trimmed. -/
theorem Clear.contents_trimmed (clear : r.Clear p) :
    (if r.setup.trimOnClose = true ∧ r.used < (r.backing p).size then (r.backing p).resize r.used
      else r.backing p).contents = r.validBytes p ++
        Array.replicate (if r.setup.trimOnClose = true then 0 else (r.backing p).size - r.used) 0 := by
  by_cases cut : r.setup.trimOnClose = true ∧ r.used < (r.backing p).size
  · rw [if_pos cut, if_pos cut.1, validBytes_eq clear.toSound, Array.replicate_zero, Array.append_empty,
      File.contents, File.size_resize, File.slice_eq_ofFn, File.slice_eq_ofFn]
    congr 1
    funext i
    rw [File.byte_resize, if_pos (by omega)]
  · rw [if_neg cut, clear.contents]
    by_cases trims : r.setup.trimOnClose = true
    · have all : (r.backing p).size - r.used = 0 := by
        have short : ¬ r.used < (r.backing p).size := fun slack => cut ⟨trims, slack⟩
        omega
      rw [if_pos trims, all]
    · rw [if_neg trims]

theorem Closed.contents_of_clear (closed : r.Closed p p') (clear : r.Clear p)
    (trims : r.setup.trimOnClose = true) : (r.backing p').contents = r.validBytes p := by
  rw [closed.trimmed, clear.contents_trimmed, if_pos trims, Array.replicate_zero, Array.append_empty]

theorem Closed.contents (closed : r.Closed p p') (alone : r.Alone p)
    (trims : r.setup.trimOnClose = true) : (r.backing p').contents = r.validBytes p :=
  closed.contents_of_clear alone.clear trims

/-! ## Opening -/

/-- A region that was opened over a file: it has the bytes of the file, which may be longer now, and
is the only one to map the file if no mapping showed it before. -/
structure Opened (f : TrackedFile) (setup : RegionSetup) (p : Platform) (r : Region) (p' : Platform) :
    Prop where
  handle : r.file.handle = f.handle
  path : r.file.path = f.path
  setup_eq : r.setup = setup
  used : r.used = (p.files.file f.handle.file).size
  clear : r.Clear p'
  longer : (p.files.file f.handle.file).Extends (r.backing p')
  only : p.mappingsOf f.handle.file = [] → (p'.mappingsOf r.fileId).Perm r.mapped.toList

/-- What failing to open a region leaves of the file: what it was, but for zeros at its end, and no zeros
if the region was to be trimmed. -/
structure Unopened (f : TrackedFile) (setup : RegionSetup) (p p' : Platform) : Prop where
  left : ∃ g, (p.files.file f.handle.file).Extends g ∧ (p'.files.file f.handle.file = g ∨
    p'.files.file f.handle.file = g.resize (p.files.file f.handle.file).size)
  unmapped : p.mappingsOf f.handle.file = [] → p'.mappingsOf f.handle.file = []
  contents : setup.trimOnClose = true →
    (p'.files.file f.handle.file).contents = (p.files.file f.handle.file).contents

/-- What opening a region over a file that is open comes to. -/
def OverCorrect (f : TrackedFile) (setup : RegionSetup) (p p' : Platform) :
    Except RegionError Region → Prop
  | .ok r => Opened f setup p r p'
  | .error _ => Unopened f setup p p'

theorem initialSizes_eq_ok {setup : RegionSetup} {len capacity used : Nat}
    (sizes : initialSizes setup len = .ok (capacity, used)) :
    used = len ∧ len ≤ capacity ∧ capacity ≤ Word.addressable := by
  have align {n : Nat} (aligned : (setup.growth.align n).map (·, len) = .ok (capacity, used)) :
      used = len ∧ n ≤ capacity ∧ capacity ≤ Word.addressable := by
    cases found : setup.growth.align n with
    | error e =>
      rw [found] at aligned
      cases aligned
    | ok rounded =>
      rw [found] at aligned
      cases aligned
      obtain ⟨rfl, bound⟩ := GrowthRule.align_eq_ok_iff.mp found
      exact ⟨rfl, setup.growth.le_roundUp n, bound⟩
  rw [initialSizes] at sizes
  split at sizes
  · exact align sizes
  · rename_i empty
    obtain rfl : len = 0 := by omega
    obtain ⟨used, _, bound⟩ := align sizes
    exact ⟨used, Nat.zero_le _, bound⟩

/-- The region over a file before anything of it is mapped. -/
def unmappedOver (f : TrackedFile) (setup : RegionSetup) : Region :=
  { file := f, mapped := none, used := f.len, medium := assumedMedium setup, setup, remaps := 0
    closed := false }

section

variable {f : TrackedFile} {setup : RegionSetup} {capacity : Nat}

/-- Where a region is opened the file is mapped, unless nothing of it is to be. -/
theorem ofTrackedFile_eq_ok (opened : ofTrackedFile f setup p = (.ok r, p')) :
    ∃ capacity, f.len ≤ capacity ∧ capacity ≤ Word.addressable ∧
      initialSizes setup f.len = .ok (capacity, f.len) ∧
      (capacity = 0 ∧ r = unmappedOver f setup ∧ p' = p ∨
        (unmappedOver f setup).remap capacity p = (.ok (), r, p')) := by
  unfold ofTrackedFile at opened
  rcases sizes : initialSizes setup f.len with e | ⟨capacity, used⟩ <;> rw [sizes] at opened
  · cases opened
  · obtain ⟨rfl, covers, addressable⟩ := initialSizes_eq_ok sizes
    refine ⟨capacity, covers, addressable, rfl, ?_⟩
    dsimp only at opened
    by_cases nothing : capacity = 0
    · rw [if_pos nothing] at opened
      cases opened
      exact .inl ⟨nothing, rfl, rfl⟩
    · rw [if_neg nothing] at opened
      rcases mapping : (unmappedOver f setup).remap capacity p with ⟨_ | _, s, q⟩
      all_goals
        unfold unmappedOver at mapping
        rw [mapping] at opened
        cases opened
      exact .inr rfl

/-- An empty file of which nothing is to be mapped. -/
theorem Opened.of_empty (writable : f.handle.writable = true)
    (known : f.len = (p.files.file f.handle.file).size) (empty : f.len = 0) :
    Opened f setup p (unmappedOver f setup) p := by
  have sound : (unmappedOver f setup).Sound p :=
    ⟨rfl, writable, by simp [unmappedOver], Nat.le_of_eq empty, Nat.zero_le _, Nat.zero_le _⟩
  refine ⟨rfl, rfl, rfl, known, ⟨sound, ?_, ?_⟩, .refl _, .of_eq⟩
  · intro i _ inside
    exact absurd inside (by show ¬ i < (p.files.file f.handle.file).size; omega)
  · intro slack
    exact absurd slack (by show ¬ f.len < (p.files.file f.handle.file).size; omega)

theorem Opened.of_remap (writable : f.handle.writable = true)
    (known : f.len = (p.files.file f.handle.file).size) (covers : f.len ≤ capacity)
    (addressable : capacity ≤ Word.addressable) (grown : Grown (unmappedOver f setup) p r p')
    (remapped : RemapCorrect (unmappedOver f setup) capacity r p' (.ok ())) :
    Opened f setup p r p' := by
  obtain ⟨m, mapped, m_len, within⟩ := remapped
  have r_capacity : r.capacity = capacity := (capacity_eq_of_mapped mapped).trans m_len
  have backing : r.backing p' = p'.files.file f.handle.file := grown.same.backing_eq p'
  have longer : (p.files.file f.handle.file).Extends (r.backing p') := backing ▸ grown.longer
  have used : r.used = (p.files.file f.handle.file).size := grown.used.trans known
  have used_le : r.used ≤ capacity := grown.used ▸ covers
  have sound : r.Sound p' := ⟨grown.same.closed, grown.same.handle ▸ writable,
    grown.same.fileId_eq ▸ grown.shows, r_capacity ▸ used_le, by rw [r_capacity, backing]; exact within,
    r_capacity ▸ addressable⟩
  refine ⟨grown.same.handle, grown.same.path, grown.same.setup, used,
    ⟨sound, fun i past inside => ?_, fun slack => longer.bounded (used ▸ slack)⟩, longer, fun unmapped => ?_⟩
  · rw [longer.byte_eq inside, if_neg (by omega)]
  · rw [grown.same.fileId_eq]
    exact grown.only (.of_eq unmapped)

/-- Where mapping the file fails the region is closed again. -/
theorem Unopened.of_remap (writable : f.handle.writable = true)
    (known : f.len = (p.files.file f.handle.file).size) (addressable : f.len ≤ Word.addressable)
    (grown : Grown (unmappedOver f setup) p r p') :
    p.OnlyFile f.handle.file (r.close p').2.2 ∧ Unopened f setup p (r.close p').2.2 := by
  have here : r.fileId = f.handle.file := grown.same.fileId_eq
  have backing : r.backing p' = p'.files.file f.handle.file := grown.same.backing_eq p'
  have longer : (p.files.file f.handle.file).Extends (r.backing p') := backing ▸ grown.longer
  have used : r.used = (p.files.file f.handle.file).size := grown.used.trans known
  have closed : r.Closed p' (r.close p').2.2 := close_correct grown.same.closed
    (grown.same.handle ▸ writable) (grown.same.fileId_eq ▸ grown.shows) (grown.used ▸ addressable)
    (fun slack => Nat.le_trans (Nat.le_of_lt slack) (longer.bounded (used ▸ slack))) rfl
  have only := closed.onlyFile
  have cut := closed.trimmed
  have none_left := closed.unmapped
  rw [here] at only none_left
  rw [Region.backing, here, used] at cut
  refine ⟨grown.onlyFile.trans only, ⟨r.backing p', longer, ?_⟩,
    fun unmapped => none_left (grown.only (.of_eq unmapped)), fun trims => ?_⟩
  · rw [cut]
    split
    · exact .inr rfl
    · exact .inl rfl
  · have setup_eq : r.setup.trimOnClose = true := (congrArg _ grown.same.setup).trans trims
    rw [cut, ← longer.contents_cut]
    simp only [setup_eq, true_and]

theorem ofTrackedFile_correct {result : Except RegionError Region}
    (writable : f.handle.writable = true) (known : f.len = (p.files.file f.handle.file).size)
    (opened : ofTrackedFile f setup p = (result, p')) :
    p.OnlyFile f.handle.file p' ∧ OverCorrect f setup p p' result := by
  rw [ofTrackedFile] at opened
  cases sizes : initialSizes setup f.len with
  | error e =>
    rw [sizes] at opened
    cases opened
    exact ⟨.refl .., ⟨_, .refl _, .inl rfl⟩, id, fun _ => rfl⟩
  | ok both =>
    obtain ⟨capacity, used⟩ := both
    obtain ⟨rfl, covers, addressable⟩ := initialSizes_eq_ok sizes
    simp only [sizes] at opened
    by_cases nothing : capacity = 0
    · rw [if_pos nothing] at opened
      cases opened
      exact ⟨.refl .., .of_empty writable known (by omega)⟩
    · rw [if_neg nothing] at opened
      rcases mapping : (unmappedOver f setup).remap capacity p with ⟨remapped, r, q⟩
      obtain ⟨grown, correct⟩ := remap_correct (by simp [unmappedOver]) mapping
      rw [unmappedOver] at mapping
      rw [mapping] at opened
      cases remapped with
      | error e =>
        cases opened
        exact Unopened.of_remap writable known (Nat.le_trans covers addressable) grown
      | ok =>
        cases opened
        exact ⟨grown.onlyFile, .of_remap writable known covers addressable grown correct⟩

end

/-- What succeeds gives a value. -/
theorem exists_of_isOk {ε α σ : Type} {outcome : Except ε α × σ} (ok : outcome.1.isOk = true) :
    ∃ a s, outcome = (.ok a, s) := by
  obtain ⟨result, s⟩ := outcome
  cases result with
  | error e => cases ok
  | ok a => exact ⟨a, s, rfl⟩

/-- What opening a region of a path does, whether or not it succeeds: it touches one file at most,
which keeps its bytes, and names stay but for that of the file if it is made. -/
structure Opening (path : Path) (p p' : Platform) : Prop where
  others : ∀ id, p.files.target? path ≠ some id → p.Spares id p'
  names : (TrackedFile.openOrCreate p.files path).2.SameNames p'.files
  found : ∀ id, p.files.target? path = some id →
    ∃ h, h.file = id ∧ p'.files.openExisting path true = .ok h
  missing : p.files.target? path = none → p' = p
  left : ∀ h, p.files.openExisting path true = .ok h → ∃ g, (p.files.file h.file).Extends g ∧
    (p'.files.file h.file = g ∨ p'.files.file h.file = g.resize (p.files.file h.file).size)

/-- Other paths lead where they did. -/
theorem Opening.leads {path : Path} (opening : Opening path p p') (other : Path) (h : Handle)
    (there : p.files.openExisting other true = .ok h) : p'.files.openExisting other true = .ok h := by
  rw [opening.names.openExisting]
  exact FileSystem.openExisting_openOrCreate path there

theorem Opening.untouched {path : Path} (opening : Opening path p p')
    (different : p.files.target? path ≠ some r.fileId) : r.Untouched p p' :=
  opening.others _ different

/-- The file of a path stays the same when it is opened. -/
theorem Opening.target?_eq {path : Path} (opening : Opening path p p') :
    p'.files.target? path = p.files.target? path := by
  cases target : p.files.target? path with
  | none => rw [opening.missing target, target]
  | some id =>
    obtain ⟨h, rfl, leads⟩ := opening.found id target
    rw [FileSystem.target?, FileSystem.openOrCreate_of_leads leads]
    rfl

theorem Opening.mem_live {path : Path} (opening : Opening path p p') {m : Mapping}
    (different : p.files.target? path ≠ some m.file) : m ∈ p'.live ↔ m ∈ p.live := by
  have same := (opening.others _ different).mappings.mem_iff (a := m)
  simpa [Platform.mappingsOf] using same

/-- A region that was opened for a path: the path leads to its file, and it has the bytes that were
there. -/
structure OpenedAt (path : Path) (setup : RegionSetup) (p : Platform) (r : Region) (p' : Platform) :
    Prop where
  target : p.files.target? path = some r.fileId
  leads : p'.files.openExisting path true = .ok r.file.handle
  path_eq : r.path = path
  setup_eq : r.setup = setup
  used : r.used = (p.files.bytesAt path).size
  bytes : r.validBytes p' = p.files.bytesAt path
  clear : r.Clear p'
  only : p.mappingsOf r.fileId = [] → (p'.mappingsOf r.fileId).Perm r.mapped.toList

theorem OpenedAt.sound {path : Path} {setup : RegionSetup} (opened : OpenedAt path setup p r p') :
    r.Sound p' := opened.clear.toSound

/-- A region has its file to itself if no mapping showed the file before. -/
theorem OpenedAt.alone {path : Path} {setup : RegionSetup} (opened : OpenedAt path setup p r p')
    (unmapped : p.mappingsOf r.fileId = []) : r.Alone p' := opened.clear.alone (opened.only unmapped)

/-- No region was opened for a path: nothing more is mapped, and the file of the path holds what it held
if the region was to be trimmed. -/
structure NotOpenedAt (path : Path) (setup : RegionSetup) (p p' : Platform) : Prop where
  unmapped : ∀ id, p.mappingsOf id = [] → p'.mappingsOf id = []
  contents : setup.trimOnClose = true → ∀ h, p.files.openExisting path true = .ok h →
    (p'.files.file h.file).contents = (p.files.file h.file).contents

/-- What opening a region of a path comes to. -/
def OpenCorrect (path : Path) (setup : RegionSetup) (p p' : Platform) :
    Except RegionError Region → Prop
  | .ok r => OpenedAt path setup p r p'
  | .error _ => NotOpenedAt path setup p p'

/-- The file that is opened for a path is touched alone, and the path leads to it. -/
theorem Opening.of_found {path : Path} {setup : RegionSetup} {f : TrackedFile} {files : FileSystem}
    {result : Except RegionError Region} (opening : TrackedFile.openOrCreate p.files path = (.ok f, files))
    (leads : files.openExisting path true = .ok f.handle)
    (others : ∀ id, id ≠ f.handle.file → files.file id = p.files.file id)
    (only : Platform.OnlyFile { p with files } f.handle.file p')
    (correct : OverCorrect f setup { p with files } p' result) : Opening path p p' := by
  have target : p.files.target? path = some f.handle.file := by rw [FileSystem.target?, opening]; rfl
  constructor
  case others =>
    intro id other
    have different : id ≠ f.handle.file := by
      rintro rfl
      exact other target
    exact ⟨(only.others id different).trans (others id different), only.mappings id different⟩
  case names =>
    rw [opening]
    exact only.names
  case found =>
    intro id found
    rw [target] at found
    refine ⟨f.handle, Option.some.inj found, ?_⟩
    rw [only.names.openExisting]
    exact leads
  case missing =>
    intro none
    rw [target] at none
    cases none
  case left =>
    intro h there
    have same := FileSystem.openOrCreate_of_leads there
    rw [opening] at same
    cases same
    cases result with
    | ok r =>
      have here : r.fileId = h.file := congrArg Handle.file correct.handle
      refine ⟨r.backing p', correct.longer, .inl ?_⟩
      rw [Region.backing, here]
    | error e => exact correct.left

/-- Where a path leads to no file and none can be made, nothing has happened. -/
theorem Opening.of_failed {path : Path} {e : IoError}
    (opening : TrackedFile.openOrCreate p.files path = (.error e, p.files)) : Opening path p p := by
  have missing : p.files.target? path = none := by rw [FileSystem.target?, opening]; rfl
  constructor
  case others => exact fun _ _ => ⟨rfl, .refl _⟩
  case names =>
    rw [opening]
    exact .refl _
  case found =>
    intro id found
    rw [missing] at found
    cases found
  case missing => exact fun _ => rfl
  case left =>
    intro h there
    have found := FileSystem.openOrCreate_of_leads there
    rw [opening] at found
    cases found

theorem open_correct {path : Path} {setup : RegionSetup} {result : Except RegionError Region}
    (opened : Region.open path setup p = (result, p')) :
    Opening path p p' ∧ OpenCorrect path setup p p' result := by
  have correct := p.files.openOrCreate_correct path
  rw [Region.open] at opened
  rcases opening : TrackedFile.openOrCreate p.files path with ⟨found, files⟩
  rw [opening] at correct opened
  cases found with
  | error e =>
    cases opened
    obtain rfl : files = p.files := correct
    exact ⟨.of_failed opening, fun _ unmapped => unmapped, fun _ _ _ => rfl⟩
  | ok f =>
    obtain ⟨path_eq, writable, known, leads, bytes, others⟩ := correct
    obtain ⟨only, correct⟩ := ofTrackedFile_correct (p := { p with files }) writable known opened
    refine ⟨.of_found opening leads others only correct, ?_⟩
    cases result with
    | ok r =>
      have here : r.fileId = f.handle.file := congrArg Handle.file correct.handle
      constructor
      case target => rw [FileSystem.target?, opening, here]; rfl
      case leads =>
        rw [only.names.openExisting, correct.handle]
        exact leads
      case path_eq => exact correct.path.trans path_eq
      case setup_eq => exact correct.setup_eq
      case used => rw [correct.used, ← bytes, File.size_contents]
      case bytes =>
        rw [validBytes_eq correct.clear.toSound, correct.used, ← bytes]
        exact correct.longer.slice_eq
      case clear => exact correct.clear
      case only =>
        rw [here]
        exact fun unmapped => here ▸ correct.only unmapped
    | error e =>
      constructor
      case unmapped =>
        intro id unmapped
        by_cases same : id = f.handle.file
        · subst same
          exact correct.unmapped unmapped
        · have others := only.mappings id same
          rw [show Platform.mappingsOf { p with files } id = [] from unmapped] at others
          exact others.eq_nil
      case contents =>
        intro trims h there
        rw [FileSystem.openOrCreate_of_leads there] at opening
        cases opening
        exact correct.contents trims

end MappedStorage.Region
