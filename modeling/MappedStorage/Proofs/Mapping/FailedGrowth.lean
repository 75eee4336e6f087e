import MappedStorage.Proofs.Mapping.Holding
import MappedStorage.Proofs.Mapping.Padding

/-!
Growth that fails. It fails at any of its steps, and the file may be longer by then; the region has
what it had, and so do all other files (`GrowthFails.alike`). As long as the mapping ends within the file,
nothing that is asked of the region within its capacity tells that the file goes on with zeros
(`serveAll_alike`), and closing it cuts them off (`close_alike`). Put together that is
`failed_growth_invisible`.
-/

namespace MappedStorage

/-- What is asked of a region that needs no more than some capacity. -/
def RegionRequest.Within (capacity : Nat) : RegionRequest → Prop
  | .write offset data => offset + data.size ≤ capacity
  | .reserve least => least ≤ capacity
  | .read .. | .flush _ | .flushWhole => True

namespace Region

/-- A region on two platforms. It differs in the length of its file that it knows, and the file in zeros
that it goes on with. -/
structure Alike (r : Region) (p : Platform) (r' : Region) (p' : Platform) : Prop where
  region : r' = { r with file := { r.file with len := r'.file.len } }
  platform : p.Alike r.file.handle p'

/-- A region that is open, on any platform: it has been opened, and asked for things since, and anything
may have happened to files and mappings in between. -/
inductive InUse : Region → Prop
  | opened {path : Path} {setup : RegionSetup} {p p' : Platform} {r : Region}
      (opening : Region.open path setup p = (.ok r, p')) : InUse r
  | attached {h : Handle} {label : Path} {setup : RegionSetup} {p p' : Platform} {r : Region}
      (opening : ofHandle h label setup p = (.ok r, p')) : InUse r
  | served {r : Region} (inUse : InUse r) (p : Platform) (request : RegionRequest) :
      InUse (r.serve p request).2.1
  | counted {r : Region} (inUse : InUse r) (len : Nat) : InUse (r.countUsed len)

/-- A write or a request for capacity that fails. -/
inductive GrowthFails (r : Region) (p : Platform) (r' : Region) (p' : Platform) : Prop
  | write {offset : Nat} {data : Bytes} {e : RegionError}
      (failed : r.write offset data p = (.error e, r', p'))
  | reserve {least : Nat} {e : RegionError} (failed : r.reserve least p = (.error e, r', p'))

variable {r r' s : Region} {p p' q : Platform}

/-! ## What fails -/

theorem Alike.refl (r : Region) (p : Platform) : r.Alike p r p := ⟨rfl, .refl _ p⟩

/-- The file may be longer, but there is no new mapping and the old one is in place. -/
theorem remap_alike {capacity : Nat} {e : RegionError}
    (failed : r.remap capacity p = (.error e, r', p')) : r.Alike p r' p' := by
  have writable := r.file.growTo_writable capacity p.files
  have longer := (r.file.growTo_extends capacity p.files).1
  have same := r.file.growTo_sameFile capacity p.files
  have known := r.file.growTo_file capacity p.files
  have lengthened {outcome : Except IoError Unit} {file : TrackedFile} {files : FileSystem}
      (growth : r.file.growTo capacity p.files = (outcome, file, files)) :
      { r with file } = { r with file := { r.file with len := file.len } } ∧
        p.Alike r.file.handle { p with files } := by
    rw [growth] at writable longer same known
    exact ⟨congrArg (fun file => { r with file }) known, rfl, rfl, same.names, same.others,
      .of_extends longer, fun more => ⟨writable more, longer.bounded more⟩⟩
  cases remap_cases failed with
  | short growth =>
    obtain ⟨region, platform⟩ := lengthened growth
    exact ⟨region, platform⟩
  | refused growth mapping =>
    obtain ⟨region, platform⟩ := lengthened growth
    exact ⟨region, platform.trans (Mapper.map_refused mapping)⟩

theorem reserve_alike {least : Nat} {e : RegionError}
    (failed : r.reserve least p = (.error e, r', p')) : r.Alike p r' p' := by
  cases reserve_cases failed with
  | closed | excessive => exact .refl r p
  | refused _ _ remapped => exact remap_alike remapped

theorem write_alike {offset : Nat} {data : Bytes} {e : RegionError}
    (failed : r.write offset data p = (.error e, r', p')) : r.Alike p r' p' := by
  cases write_cases failed with
  | closed | beyond => exact .refl r p
  | refused reserved => exact reserve_alike reserved

/-- Whatever it is that fails, the region has what it had. -/
theorem GrowthFails.alike (failed : r.GrowthFails p r' p') : r.Alike p r' p' := by
  cases failed with
  | write failed => exact write_alike failed
  | reserve failed => exact reserve_alike failed

/-! ## Regions in use -/

/-- A region that gets a mapping, or none at all because it needs none, fits. -/
theorem ofTrackedFile_fitted {f : TrackedFile} {setup : RegionSetup}
    (opened : ofTrackedFile f setup p = (.ok r, p')) : r.Fitted := by
  obtain ⟨capacity, covers, -, -, ⟨rfl, rfl, -⟩ | remapped⟩ := ofTrackedFile_eq_ok opened
  · exact ⟨rfl, by simp [unmappedOver], covers⟩
  · obtain ⟨grown, m, mapped, m_len, -⟩ := remap_correct (by simp [unmappedOver]) remapped
    refine ⟨grown.same.closed, grown.same.fileId_eq ▸ grown.shows, ?_⟩
    rw [grown.used, capacity_eq_of_mapped mapped, m_len]
    exact covers

theorem Fitted.reserve {least : Nat} {result : Except RegionError Unit} (fitted : r.Fitted)
    (reserved : r.reserve least p = (result, r', p')) :
    r'.Fitted ∧ (result = .ok () → least ≤ r'.capacity) := by
  have used_le := fitted.used_le
  cases reserve_cases reserved with
  | closed shut => cases fitted.isOpen.symm.trans shut
  | covered enough => exact ⟨fitted, fun _ => enough⟩
  | excessive => exact ⟨fitted, fun granted => by cases granted⟩
  | refused _ _ remapped =>
    obtain ⟨grown, mapped, -⟩ := remap_correct fitted.shows remapped
    have same : r'.capacity = r.capacity := by rw [capacity, capacity, mapped]
    refine ⟨⟨grown.same.closed.trans fitted.isOpen, grown.same.fileId_eq ▸ grown.shows, ?_⟩,
      fun granted => by cases granted⟩
    rw [grown.used, same]
    exact used_le
  | @enlarged g s _ _ growth remapped =>
    obtain ⟨short, covers, -⟩ := GrowthRule.grow_reaches growth
    obtain ⟨grown, m, mapped, m_len, -⟩ := remap_correct fitted.shows remapped
    have reached : s.capacity = g.capacity := (capacity_eq_of_mapped mapped).trans m_len
    have room : s.used ≤ s.capacity := by rw [grown.used, reached]; omega
    exact ⟨⟨grown.same.closed.trans fitted.isOpen, grown.same.fileId_eq ▸ grown.shows, room⟩,
      fun _ => Nat.le_trans covers (Nat.le_of_eq reached.symm)⟩

theorem Fitted.put (fitted : r.Fitted) {stop : Nat} (room : stop ≤ r.capacity) :
    ({ r with used := max r.used stop } : Region).Fitted :=
  ⟨fitted.isOpen, fitted.shows, Nat.max_le.mpr ⟨fitted.used_le, room⟩⟩

theorem Fitted.write {offset : Nat} {data : Bytes} {result : Except RegionError Span} (fitted : r.Fitted)
    (wrote : r.write offset data p = (result, r', p')) : r'.Fitted := by
  cases write_cases wrote with
  | closed shut => cases fitted.isOpen.symm.trans shut
  | beyond | empty => exact fitted
  | refused reserved => exact (fitted.reserve reserved).1
  | stored _ reserved =>
    obtain ⟨grown, covers⟩ := fitted.reserve reserved
    exact grown.put (covers rfl)

theorem Fitted.serve (fitted : r.Fitted) (p : Platform) (request : RegionRequest) :
    (r.serve p request).2.1.Fitted := by
  cases request with
  | write offset data => exact fitted.write rfl
  | reserve least => exact (fitted.reserve rfl).1
  | read offset buffer | flush f | flushWhole => exact fitted

/-- A region in use fits, whatever has happened around it. -/
theorem InUse.fitted (inUse : r.InUse) : r.Fitted := by
  induction inUse with
  | opened opening =>
    unfold Region.open at opening
    split at opening
    · cases opening
    · exact ofTrackedFile_fitted opening
  | attached opening => exact ofTrackedFile_fitted opening
  | served inUse p request ih => exact ih.serve p request
  | counted inUse len ih => exact ih.put (Nat.min_le_right ..)

/-! ## What is asked afterwards -/

/-- A region whose mapping ends within its file. -/
structure Backed (r : Region) (p : Platform) : Prop extends Fitted r where
  capacity_le : r.capacity ≤ (r.backing p).size

/-- A region after something within its capacity: it is as large as before. -/
structure Stays (r s : Region) (q : Platform) : Prop where
  backed : s.Backed q
  capacity : s.capacity = r.capacity
  same : r.SameRegion s

theorem Sound.backed (sound : r.Sound p) : r.Backed p :=
  ⟨sound.fitted, sound.capacity_le⟩

theorem Stays.refl (backed : r.Backed p) : r.Stays r p := ⟨backed, rfl, .refl r⟩

theorem reserve_within {least : Nat} (isOpen : r.closed = false) (within : least ≤ r.capacity)
    (p : Platform) : r.reserve least p = (.ok (), r, p) := by
  rw [reserve, if_neg (by simp [isOpen]), GrowthRule.grow_eq_none_iff.mpr within]

/-- Within the capacity a write stores its bytes and does nothing else. -/
theorem write_within {offset : Nat} {data : Bytes} (isOpen : r.closed = false)
    (within : offset + data.size ≤ r.capacity) (p : Platform) :
    r.write offset data p =
      match Word.add? offset data.size with
      | none => (.error (.capacity (.overflow Word.max)), r, p)
      | some stop =>
        if data.size = 0 then (.ok ⟨offset, offset⟩, r, p)
        else (.ok ⟨offset, stop⟩, (r.put offset data p).1, (r.put offset data p).2) := by
  rw [write, if_neg (by simp [isOpen])]
  cases sum : Word.add? offset data.size with
  | none => rfl
  | some stop =>
    obtain ⟨rfl, -⟩ := Word.add?_eq_some_iff.mp sum
    simp only [reserve_within isOpen within]

/-- Regions that are alike are one, but for the length of the file that is known. -/
theorem Alike.exists_len (alike : r.Alike p r' p') :
    p.Alike r.file.handle p' ∧ ∃ len, r' = { r with file := { r.file with len } } :=
  ⟨alike.platform, _, alike.region⟩

theorem Alike.capacity_eq (alike : r.Alike p r' p') : r'.capacity = r.capacity := by
  rw [alike.region]
  rfl

/-- Bytes stored within the capacity are stored in both. -/
theorem Alike.put (alike : r.Alike p r' p') (backed : r.Backed p) {offset : Nat} {data : Bytes}
    (within : offset + data.size ≤ r.capacity) :
    (r.put offset data p).1.Alike (r.put offset data p).2 (r'.put offset data p').1
        (r'.put offset data p').2 ∧
      r.Stays (r.put offset data p).1 (r.put offset data p).2 := by
  have fitted := backed.put within
  obtain ⟨platform, len, rfl⟩ := alike.exists_len
  rcases Option.eq_none_or_eq_some r.mapped with mapped | ⟨m, mapped⟩
  · have put_eq (s : Region) (q : Platform) (none : s.mapped = none) :
        s.put offset data q = ({ s with used := max s.used (offset + data.size) }, q) := by
      simp only [Region.put, none]
    rw [put_eq r p mapped]
    rw [put_eq { r with file := { r.file with len } } p' mapped]
    exact ⟨⟨rfl, platform⟩, ⟨fitted, backed.capacity_le⟩, rfl, ⟨rfl, rfl, rfl, rfl⟩⟩
  · have shows := backed.shows m mapped
    have put_eq (s : Region) (q : Platform) (here : s.mapped = some m) : s.put offset data q =
        ({ s with used := max s.used (offset + data.size) }, q.store m offset data) := by
      simp only [Region.put, here]
    rw [put_eq r p mapped]
    rw [put_eq { r with file := { r.file with len } } p' mapped]
    have stored := platform.store shows (Nat.le_trans within backed.capacity_le)
    refine ⟨⟨rfl, stored⟩, ⟨fitted, ?_⟩, rfl, ⟨rfl, rfl, rfl, rfl⟩⟩
    show r.capacity ≤ ((p.store m offset data).files.file r.fileId).size
    rw [← shows, Platform.store, FileSystem.file_setFile_self, File.size_overlay, shows]
    exact backed.capacity_le

theorem Alike.write (alike : r.Alike p r' p') (backed : r.Backed p) {offset : Nat} {data : Bytes}
    (within : offset + data.size ≤ r.capacity) :
    (r'.write offset data p').1 = (r.write offset data p).1 ∧
      (r.write offset data p).2.1.Alike (r.write offset data p).2.2 (r'.write offset data p').2.1
        (r'.write offset data p').2.2 ∧
      r.Stays (r.write offset data p).2.1 (r.write offset data p).2.2 := by
  have isOpen : r'.closed = false := by rw [alike.region]; exact backed.isOpen
  have stored := alike.put backed within
  rw [write_within backed.isOpen within, write_within isOpen (alike.capacity_eq ▸ within)]
  cases Word.add? offset data.size with
  | none => exact ⟨rfl, alike, .refl backed⟩
  | some stop =>
    dsimp only
    split
    · exact ⟨rfl, alike, .refl backed⟩
    · exact ⟨rfl, stored⟩

/-- What is read lies within the used bytes, and these within the file. -/
theorem Alike.readInto (alike : r.Alike p r' p') (backed : r.Backed p) (offset : Nat) (buffer : Bytes) :
    r'.readInto offset buffer p' = r.readInto offset buffer p := by
  have used_le := backed.used_le
  have capacity_le := backed.capacity_le
  obtain ⟨platform, len, rfl⟩ := alike.exists_len
  rw [Region.readInto, Region.readInto]
  cases mapped : r.mapped with
  | none => rfl
  | some m =>
    have loaded : p'.loadBytes m offset (r.readable offset buffer.size) =
        p.loadBytes m offset (r.readable offset buffer.size) := by
      by_cases past : offset ≤ r.used
      · refine platform.loadBytes_eq (backed.shows m mapped) ?_
        have reach : r.readable offset buffer.size ≤ r.used - offset := Nat.min_le_right ..
        rw [backing, fileId] at capacity_le
        omega
      · have nothing : r.readable offset buffer.size = 0 := by rw [readable]; omega
        rw [nothing, Platform.loadBytes, Platform.loadBytes, File.slice_eq_ofFn, File.slice_eq_ofFn]
        rfl
    unfold Region.readable at loaded ⊢
    dsimp only
    rw [loaded]

/-- A region that is mapped flushes what is mapped of the range. -/
theorem flush_of_mapped {m : Mapping} (mapped : r.mapped = some m) (f : Flush) (p : Platform) :
    r.flush f p =
      let span := r.clip f.span
      let made := r.setup.mapper.flush m span.start (span.stop - span.start) f.medium p
      (made.1.mapError fun e => .io r.path e.toIo, made.2) := by
  rw [Region.flush, mapped]
  dsimp only
  split <;> rename_i made <;> rw [made] <;> rfl

theorem Alike.flush (alike : r.Alike p r' p') (backed : r.Backed p) (f : Flush) :
    (r'.flush f p').1 = (r.flush f p).1 ∧ r.Alike (r.flush f p).2 r' (r'.flush f p').2 ∧
      r.Stays r (r.flush f p).2 := by
  have settled := flush_settled (p := p) backed.shows f
  have backed' : r.Backed (r.flush f p).2 :=
    ⟨backed.toFitted, settled.flushed.size_eq.symm ▸ backed.capacity_le⟩
  suffices same : (r'.flush f p').1 = (r.flush f p).1 ∧
      (r.flush f p).2.Alike r.file.handle (r'.flush f p').2 by
    exact ⟨same.1, ⟨alike.region, same.2⟩, .refl backed'⟩
  obtain ⟨platform, len, rfl⟩ := alike.exists_len
  rcases Option.eq_none_or_eq_some r.mapped with mapped | ⟨m, mapped⟩
  · simp only [Region.flush, mapped, true_and]
    exact platform
  · obtain ⟨answer, same⟩ := r.setup.mapper.flush_alike platform (backed.shows m mapped)
      (r.clip f.span).start ((r.clip f.span).stop - (r.clip f.span).start) f.medium
    rw [flush_of_mapped mapped,
      flush_of_mapped (r := { r with file := { r.file with len } }) mapped]
    exact ⟨congrArg (Except.mapError fun e : MappingError => RegionError.io r.path e.toIo) answer, same⟩

/-- What is asked of a region within its capacity is answered the same, and the regions stay alike. -/
theorem serve_alike (alike : r.Alike p r' p') (backed : r.Backed p) {request : RegionRequest}
    (within : request.Within r.capacity) :
    (r'.serve p' request).1 = (r.serve p request).1 ∧
      (r.serve p request).2.1.Alike (r.serve p request).2.2 (r'.serve p' request).2.1
        (r'.serve p' request).2.2 ∧
      r.Stays (r.serve p request).2.1 (r.serve p request).2.2 := by
  have isOpen : r'.closed = false := by rw [alike.region]; exact backed.isOpen
  cases request with
  | write offset data =>
    obtain ⟨answer, later⟩ := alike.write backed within
    exact ⟨congrArg RegionAnswer.wrote answer, later⟩
  | read offset buffer =>
    have same := alike.readInto backed offset buffer
    exact ⟨by simp only [serve, same], alike, .refl backed⟩
  | reserve least =>
    have here := reserve_within backed.isOpen within p
    have there := reserve_within isOpen (alike.capacity_eq ▸ within) p'
    simp only [serve, here, there, true_and]
    exact ⟨alike, .refl backed⟩
  | flush f =>
    obtain ⟨answer, later⟩ := alike.flush backed f
    exact ⟨congrArg RegionAnswer.flushed answer, later⟩
  | flushWhole =>
    have whole : r'.flushWhole p' = r'.flush ⟨r.medium, ⟨0, r.capacity⟩⟩ p' := by
      rw [flushWhole, alike.capacity_eq, show r'.medium = r.medium by rw [alike.region]]
    obtain ⟨answer, later⟩ := alike.flush backed ⟨r.medium, ⟨0, r.capacity⟩⟩
    rw [← whole] at answer later
    exact ⟨congrArg RegionAnswer.flushed answer, later⟩

/-- Requests in order, all of them within the capacity. -/
theorem serveAll_alike (requests : List RegionRequest) (alike : r.Alike p r' p') (backed : r.Backed p)
    (within : ∀ request ∈ requests, request.Within r.capacity) :
    (r'.serveAll p' requests).1 = (r.serveAll p requests).1 ∧
      (r.serveAll p requests).2.1.Alike (r.serveAll p requests).2.2 (r'.serveAll p' requests).2.1
        (r'.serveAll p' requests).2.2 ∧
      r.Stays (r.serveAll p requests).2.1 (r.serveAll p requests).2.2 := by
  induction requests generalizing r p r' p' with
  | nil => exact ⟨rfl, alike, .refl backed⟩
  | cons request rest ih =>
    obtain ⟨answer, later, stays⟩ := serve_alike alike backed (within request (.head _))
    have rest_within : ∀ next ∈ rest, next.Within (r.serve p request).2.1.capacity := by
      intro next member
      rw [stays.capacity]
      exact within next (.tail _ member)
    obtain ⟨answers, last, stayed⟩ := ih later stays.backed rest_within
    exact ⟨congrArg₂ List.cons answer answers, last, stayed.backed,
      stayed.capacity.trans stays.capacity, stays.same.trans stayed.same⟩

/-! ## Closing -/

theorem Alike.trim (alike : r.Alike p r' p') (within : r.used ≤ (r.backing p).size) :
    (r'.trim p').1 = (r.trim p).1 ∧ (r.setup.trimOnClose = true →
      ((r.trim p).2.2.files.file r.fileId).Holds ((r'.trim p').2.2.files.file r.fileId)) := by
  obtain ⟨platform, len, rfl⟩ := alike.exists_len
  obtain ⟨answer, same⟩ := platform.trimTo (f := r.file) len within
  unfold Region.trim
  dsimp only
  split
  · rcases cut : r.file.trimTo r.used p.files with ⟨outcome, f, files⟩
    rcases cut' : ({ r.file with len } : TrackedFile).trimTo r.used p'.files with ⟨outcome', f', files'⟩
    rw [cut, cut'] at answer same
    cases answer
    cases outcome <;> exact ⟨rfl, fun _ => same⟩
  · rename_i never
    exact ⟨rfl, fun trims => absurd trims never⟩

theorem Alike.detach (alike : r.Alike p r' p') :
    (r'.detach p').1 = (r.detach p).1 ∧
      (r.detach p).2.1.Alike (r.detach p).2.2 (r'.detach p').2.1 (r'.detach p').2.2 := by
  obtain ⟨platform, len, rfl⟩ := alike.exists_len
  unfold Region.detach
  dsimp only
  split
  · exact ⟨rfl, rfl, platform⟩
  · rename_i m _
    obtain ⟨answer, same⟩ := Mapper.unmap_alike m platform
    rcases unmapped : Mapper.unmap m p with ⟨outcome, q⟩
    rcases unmapped' : Mapper.unmap m p' with ⟨outcome', q'⟩
    rw [unmapped, unmapped'] at answer same
    cases answer
    cases outcome <;> exact ⟨rfl, rfl, same⟩

/-- Closing is answered the same, and if it trims the files it leaves hold the same. -/
theorem close_alike (alike : r.Alike p r' p') (backed : r.Backed p) :
    (r'.close p').1 = (r.close p).1 ∧ (r.setup.trimOnClose = true →
      ((r.close p).2.2.files.file r.fileId).Holds ((r'.close p').2.2.files.file r.fileId)) := by
  have used_le : r.used ≤ (r.backing p).size := Nat.le_trans backed.used_le backed.capacity_le
  have isOpen : r'.closed = false := by rw [alike.region]; exact backed.isOpen
  obtain ⟨region, platform⟩ := alike
  have closing : ({ r with closed := true } : Region).Alike p { r' with closed := true } p' :=
    ⟨by rw [region], platform⟩
  obtain ⟨answer, same⟩ := closing.detach
  rw [close, if_neg (by simp [isOpen]), close, if_neg (by simp [backed.isOpen])]
  rcases detaching : ({ r with closed := true } : Region).detach p with ⟨detached, s, q⟩
  rcases detaching' : ({ r' with closed := true } : Region).detach p' with ⟨detached', s', q'⟩
  rw [detaching, detaching'] at answer same
  cases answer
  obtain ⟨rfl, files, -, -⟩ := detach_correct (r := { r with closed := true }) backed.shows detaching
  have within : r.used ≤ (q.files.file r.fileId).size := files ▸ used_le
  obtain ⟨trimmed, held⟩ := same.trim within
  dsimp only
  rw [trimmed]
  cases detached <;> exact ⟨rfl, held⟩

/-! ## The whole -/

/-- A region and a platform that are as others were, but for zeros at the end of one file and for the
mappings that will be refused. -/
structure Unmoved (r : Region) (p : Platform) (r' : Region) (p' : Platform) : Prop where
  mapped : r'.mapped = r.mapped
  capacity : r'.capacity = r.capacity
  used : r'.used = r.used
  medium : r'.medium = r.medium
  remaps : r'.remaps = r.remaps
  isOpen : r'.closed = false
  live : p'.live = p.live
  names : p.files.SameNames p'.files
  others : ∀ id, id ≠ r.fileId → p'.files.file id = p.files.file id
  file : (p.files.file r.fileId).Padded (p'.files.file r.fileId)

/-- Nothing within a capacity tells a region from another: the bytes mapped, the answers to requests, the
valid bytes after them, and what closing leaves of the file if it trims. -/
structure Indistinct (r : Region) (p : Platform) (r' : Region) (p' : Platform) : Prop where
  bytes : ∀ span, r'.bytes? span p' = r.bytes? span p
  later : ∀ requests, (∀ request ∈ requests, request.Within r.capacity) →
    let (answers, s, q) := r.serveAll p requests
    let (answers', s', q') := r'.serveAll p' requests
    answers' = answers ∧ s'.validBytes q' = s.validBytes q ∧ (s'.close q').1 = (s.close q).1 ∧
      (r.setup.trimOnClose = true →
        ((s.close q).2.2.files.file r.fileId).Holds ((s'.close q').2.2.files.file r.fileId))

theorem Alike.unmoved (alike : r.Alike p r' p') (isOpen : r.closed = false) : r.Unmoved p r' p' := by
  obtain ⟨platform, len, rfl⟩ := alike.exists_len
  exact ⟨rfl, rfl, rfl, rfl, rfl, isOpen, platform.live, platform.names, platform.others, platform.file⟩

/-- All that is mapped lies within the file. -/
theorem Alike.bytes?_eq (alike : r.Alike p r' p') (backed : r.Backed p) (span : Span) :
    r'.bytes? span p' = r.bytes? span p := by
  have capacity_le := backed.capacity_le
  rw [bytes?, bytes?, alike.capacity_eq, show r'.mapped = r.mapped by rw [alike.region]]
  split
  · rename_i inside
    split
    · rename_i m mapped
      refine congrArg some (alike.platform.loadBytes_eq (backed.shows m mapped) ?_)
      rw [backing, fileId] at capacity_le
      omega
    · rfl
  · rfl

theorem Alike.validBytes_eq (alike : r.Alike p r' p') (backed : r.Backed p) :
    r'.validBytes p' = r.validBytes p := by
  have within := Nat.le_trans backed.used_le backed.capacity_le
  rw [validBytes, validBytes, show r'.mapped = r.mapped by rw [alike.region],
    show r'.used = r.used by rw [alike.region]]
  split
  · rename_i m mapped
    refine alike.platform.loadBytes_eq (backed.shows m mapped) ?_
    rw [Nat.zero_add]
    exact within
  · rfl

theorem failed_growth_invisible (inUse : r.InUse) (failed : r.GrowthFails p r' p') :
    r.Unmoved p r' p' ∧ (r.capacity ≤ (p.files.file r.fileId).size → r.Indistinct p r' p') := by
  have alike := failed.alike
  refine ⟨alike.unmoved inUse.fitted.isOpen, fun capacity_le => ?_⟩
  have backed : r.Backed p := ⟨inUse.fitted, capacity_le⟩
  refine ⟨alike.bytes?_eq backed, fun requests within => ?_⟩
  obtain ⟨answers, later, stays⟩ := serveAll_alike requests alike backed within
  obtain ⟨closed, held⟩ := close_alike later stays.backed
  refine ⟨answers, later.validBytes_eq stays.backed, closed, fun trims => ?_⟩
  rw [← stays.same.fileId_eq]
  exact held (stays.same.setup ▸ trims)

/-- For instance a mapping that is refused for want of memory, after the file was made longer. -/
theorem refused_mapping_invisible :
    ∃ (r : Region) (p : Platform) (r' : Region) (p' : Platform), r.InUse ∧ r.GrowthFails p r' p' ∧
      r.capacity ≤ (p.files.file r.fileId).size ∧ r.Unmoved p r' p' ∧ r.Indistinct p r' p' := by
  let setup : RegionSetup := { mapper := { detection := .emulated }, initialCapacity := 8 }
  let start : Platform := { files := .empty, plan := { plain := [.granted, .refused Errno.noMemory] } }
  have refused : (match Region.open ⟨[0x78]⟩ setup start with
      | (.ok r, p) => some ((r.reserve 64 p).1.isOk, decide (r.capacity ≤ (p.files.file r.fileId).size))
      | (.error _, _) => none) = some (false, true) := by
    dsimp +zetaDelta only
    cbv
  rcases opened : Region.open ⟨[0x78]⟩ setup start with ⟨_ | r, p⟩ <;> rw [opened] at refused
  · cases refused
  · dsimp only at refused
    rcases reserving : r.reserve 64 p with ⟨e | _, r', p'⟩ <;> rw [reserving] at refused
    · have within : r.capacity ≤ (p.files.file r.fileId).size :=
        of_decide_eq_true (Prod.mk.inj (Option.some.inj refused)).2
      have fails : r.GrowthFails p r' p' := .reserve reserving
      obtain ⟨unmoved, indistinct⟩ := failed_growth_invisible (.opened opened) fails
      exact ⟨r, p, r', p', .opened opened, fails, within, unmoved, indistinct within⟩
    · cases (Prod.mk.inj (Option.some.inj refused)).1

/-- Where another region has cut the file short of the used bytes, growth that fails makes it longer again,
and closing leaves zeros there. -/
theorem shortened_file_lengthened :
    ∃ (r : Region) (p : Platform) (r' : Region) (p' : Platform), r.InUse ∧ r.GrowthFails p r' p' ∧
      r.setup.trimOnClose = true ∧ ((r.close p).2.2.files.file r.fileId).contents = #[1, 2] ∧
      ((r'.close p').2.2.files.file r.fileId).contents = #[1, 2, 0] := by
  let setup : RegionSetup := { mapper := { detection := .emulated }, initialCapacity := 2 }
  let start : Platform :=
    { files := .empty, plan := { plain := [.granted, .granted, .granted, .refused Errno.noMemory] } }
  let write : RegionRequest := .write 0 #[1, 2, 3]
  have left : ((Region.open ⟨[0x78]⟩ setup start).1.toOption.bind fun r =>
      (Region.open ⟨[0x78]⟩ setup (Region.open ⟨[0x78]⟩ setup start).2).1.toOption.map fun other =>
        let served := r.serve (Region.open ⟨[0x78]⟩ setup (Region.open ⟨[0x78]⟩ setup start).2).2 write
        let s := served.2.1
        let p := (other.close served.2.2).2.2
        let made := s.reserve 64 p
        (made.1.isOk, s.setup.trimOnClose, ((s.close p).2.2.files.file s.fileId).contents,
          ((made.2.1.close made.2.2).2.2.files.file s.fileId).contents)) =
      some (false, true, #[1, 2], #[1, 2, 0]) := by
    dsimp +zetaDelta only
    cbv
  rcases opened : Region.open ⟨[0x78]⟩ setup start with ⟨_ | r, p⟩ <;> rw [opened] at left
  · cases left
  dsimp only at left
  rcases again : Region.open ⟨[0x78]⟩ setup p with ⟨_ | other, q⟩ <;> rw [again] at left
  · cases left
  have inUse := InUse.served (.opened opened) q write
  dsimp only [Except.toOption, Option.bind_some, Option.map_some] at left
  rcases wrote : r.serve q write with ⟨answer, s, q'⟩
  rw [wrote] at inUse left
  dsimp only at left inUse
  rcases reserving : s.reserve 64 (other.close q').2.2 with ⟨e | _, s', p'⟩ <;> rw [reserving] at left
  · injection left with left
    injection left with _ left
    injection left with trims left
    injection left with before after
    exact ⟨s, _, s', p', inUse, .reserve reserving, trims, before, after⟩
  · cases (Prod.mk.inj (Option.some.inj left)).1

end Region

end MappedStorage
