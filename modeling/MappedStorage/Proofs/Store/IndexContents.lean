import MappedStorage.Proofs.Store.Slots

/-!
Indexes over one file. Each has a mapping, a capacity and a length of the file of its own, but none cuts
the file or drops what another has stored: whatever grows, fails, or is unmapped, the file holds what was
stored last at each offset (`Indexes.stored`), and every slot that resolves shows just that
(`Indexes.run_contents`).
-/

namespace MappedStorage

/-- What a file holds, by offset, once some bytes are laid over it. -/
def lay (contents : Nat → UInt8) (offset : Nat) (data : Bytes) (o : Nat) : UInt8 :=
  if offset ≤ o ∧ o < offset + data.size then data.getD (o - offset) 0 else contents o

/-- The word at an offset, lowest byte first. -/
def wordAt (contents : Nat → UInt8) (o : Nat) : Nat :=
  (contents o).toNat + (contents (o + 1)).toNat * 0x100 + (contents (o + 2)).toNat * 0x10000 +
    (contents (o + 3)).toNat * 0x1000000

/-- The bytes that a request stores, and from which offset of the file on. -/
def IndexRequest.stores? : IndexRequest → Option (Nat × Bytes)
  | .storeWord target i word => some (target.offset + i * Region.wordSize, WordView.bytesOf word)
  | .fill target byte => some (target.offset, Array.replicate target.len byte)
  | .slot .. | .barrier | .unmap _ => none

/-- What was to be stored has been stored. -/
def IndexAnswer.isStored : IndexAnswer → Bool
  | .stored there => there
  | .slot _ | .done _ | .nobody => false

/-- What a file holds once a request has been answered. -/
def IndexRequest.leaves (request : IndexRequest) (contents : Nat → UInt8) (answer : IndexAnswer)
    (o : Nat) : UInt8 :=
  if answer.isStored then
    match request.stores? with
    | some (offset, data) => lay contents offset data o
    | none => contents o
  else contents o

/-- The event is about an index over the file of a path, and does not remove the file. -/
def IndexEvent.sharing (path : Path) : IndexEvent → Bool
  | .new _ other _ _ => other = path
  | .ask _ (.unmap delete) => !delete
  | .ask .. | .drop _ => true

/-- The event stores nothing at an offset. -/
def IndexEvent.sparing (o : Nat) : IndexEvent → Bool
  | .ask _ request =>
    match request.stores? with
    | some (offset, data) => o < offset || offset + data.size ≤ o
    | none => true
  | .new .. | .drop _ => true

namespace Indexes

/-- The account of what the file holds, after one more event. -/
def keep (s : Indexes) (contents : Nat → UInt8) (e : IndexEvent) : Nat → UInt8 :=
  match e with
  | .ask _ request => request.leaves contents (s.step e).1
  | _ => contents

/-- What the file holds after some events: at each offset what was stored there last. -/
def stored (s : Indexes) (contents : Nat → UInt8) : List IndexEvent → Nat → UInt8
  | [] => contents
  | e :: rest => stored (s.step e).2 (s.keep contents e) rest

end Indexes

/-- A slot that resolves shows what the file holds. -/
structure SharedIndex.Shows (x : SharedIndex) (contents : Nat → UInt8) (p : Platform) : Prop where
  bytes : ∀ slot bytes, x.readSlot? slot p = some bytes →
    bytes.size = slot.len ∧ ∀ i < slot.len, bytes.getD i 0 = contents (slot.offset + i)
  words : ∀ slot words, x.wordsOf? slot = some words → words.count = slot.len / Region.wordSize ∧
    ∀ i < words.count, words.load i p = wordAt contents (slot.offset + i * Region.wordSize)

/-! ## The file of a path -/

namespace File

variable {f f' : File}

theorem Extends.getD_contents (longer : f.Extends f') (i : Nat) :
    f'.contents.getD i 0 = f.contents.getD i 0 := by
  rw [File.getD_contents, File.getD_contents]
  by_cases inside : i < f'.size
  · rw [if_pos inside, longer.byte_eq inside]
  · have size_le := longer.size_le
    rw [if_neg inside, if_neg (by omega)]

theorem Extends.getD_contents_cut (longer : f.Extends f') (i : Nat) :
    (f'.resize f.size).contents.getD i 0 = f.contents.getD i 0 := by
  have size_le := longer.size_le
  rw [File.getD_contents, File.getD_contents, size_resize]
  by_cases inside : i < f.size
  · rw [if_pos inside, if_pos inside, byte_resize, if_pos (by omega), longer.byte_eq (by omega),
      if_pos inside]
  · rw [if_neg inside, if_neg inside]

theorem Flushed.getD_contents (flushed : f.Flushed f') (i : Nat) :
    f'.contents.getD i 0 = f.contents.getD i 0 := by
  rw [File.getD_contents, File.getD_contents, flushed.size_eq]
  by_cases inside : i < f.size
  · rw [if_pos inside, if_pos inside, flushed.byte_eq inside]
  · rw [if_neg inside, if_neg inside]

end File

/-- The byte of the file that a path leads to, and zero where it has none. -/
def FileSystem.byteAt (fs : FileSystem) (path : Path) (o : Nat) : UInt8 := (fs.bytesAt path).getD o 0

theorem FileSystem.byteAt_of_leads {fs : FileSystem} {path : Path} {h : Handle}
    (leads : fs.openExisting path true = .ok h) (o : Nat) :
    fs.byteAt path o = (fs.file h.file).contents.getD o 0 := by
  rw [byteAt, bytesAt, leads]

namespace Platform

variable {p q p' : Platform} {path : Path} {h : Handle}

/-- A path that leads to a file goes on to do so, and the file gets no shorter. -/
def Retains (path : Path) (p p' : Platform) : Prop :=
  ∀ h, p.files.openExisting path true = .ok h → p'.files.openExisting path true = .ok h ∧
    (p.files.file h.file).size ≤ (p'.files.file h.file).size

/-- Besides, the file of the path holds the same. -/
structure Steady (path : Path) (p p' : Platform) : Prop where
  retains : p.Retains path p'
  bytes : ∀ o, p'.files.byteAt path o = p.files.byteAt path o

theorem Retains.trans (first : Retains path p q) (second : Retains path q p') : Retains path p p' := by
  intro h leads
  obtain ⟨there, longer⟩ := first h leads
  obtain ⟨still, longer'⟩ := second h there
  exact ⟨still, Nat.le_trans longer longer'⟩

theorem Steady.of_files (same : p'.files = p.files) : Steady path p p' := by
  refine ⟨fun h leads => ?_, fun o => by rw [same]⟩
  rw [same]
  exact ⟨leads, Nat.le_refl _⟩

theorem Steady.refl (path : Path) (p : Platform) : Steady path p p := .of_files rfl

theorem Steady.trans (first : Steady path p q) (second : Steady path q p') : Steady path p p' :=
  ⟨first.retains.trans second.retains, fun o => (second.bytes o).trans (first.bytes o)⟩

theorem Retains.of_names (names : p.files.SameNames p'.files)
    (leads : p.files.openExisting path true = .ok h)
    (longer : (p.files.file h.file).size ≤ (p'.files.file h.file).size) : Retains path p p' := by
  intro other there
  rw [leads] at there
  cases there
  exact ⟨by rw [names.openExisting, leads], longer⟩

/-- Where only the file of the path changes, and holds the same after that. -/
theorem Steady.of_names (names : p.files.SameNames p'.files)
    (leads : p.files.openExisting path true = .ok h)
    (longer : (p.files.file h.file).size ≤ (p'.files.file h.file).size)
    (same : ∀ o, (p'.files.file h.file).contents.getD o 0 = (p.files.file h.file).contents.getD o 0) :
    Steady path p p' := by
  refine ⟨.of_names names leads longer, fun o => ?_⟩
  rw [FileSystem.byteAt_of_leads leads, FileSystem.byteAt_of_leads (by rw [names.openExisting, leads]), same]

/-- To open the file of a path, making it if need be, leaves what it holds. -/
theorem Steady.of_openOrCreate (path : Path) (p : Platform) :
    Steady path p { p with files := (TrackedFile.openOrCreate p.files path).2 } := by
  refine ⟨fun h leads => ?_, fun o => ?_⟩
  · rw [FileSystem.openOrCreate_of_leads leads]
    exact ⟨leads, Nat.le_refl _⟩
  · have correct := p.files.openOrCreate_correct path
    rcases opening : TrackedFile.openOrCreate p.files path with ⟨found, files⟩
    rw [opening] at correct
    cases found with
    | error e => rw [show files = p.files from correct]
    | ok f =>
      obtain ⟨_, _, _, leads, contents, _⟩ := correct
      rw [FileSystem.byteAt_of_leads leads]
      exact congrArg (·.getD o 0) contents

end Platform

/-! ## Regions over the file of a path -/

namespace Region

variable {r r' : Region} {p p' : Platform} {path : Path} {setup : RegionSetup} {m : Mapping}

/-- An open region over the file of a path, which closing does not cut. -/
structure Over (r : Region) (path : Path) (p : Platform) : Prop extends r.Sound p where
  leads : p.files.openExisting path true = .ok r.file.handle
  untrimmed : r.setup.trimOnClose = false

theorem Over.of_retains (onPath : r.Over path p) (retains : p.Retains path p') : r.Over path p' := by
  obtain ⟨leads, longer⟩ := retains _ onPath.leads
  have sound : r.Sound p' := { onPath.toSound with capacity_le := Nat.le_trans onPath.capacity_le longer }
  exact ⟨sound, leads, onPath.untrimmed⟩

/-- What the file of the path holds, where the region is mapped. -/
theorem Over.byte_eq (onPath : r.Over path p) {o : Nat} (within : o < r.capacity) :
    p.files.byteAt path o = (r.backing p).byte o := by
  rw [FileSystem.byteAt_of_leads onPath.leads, File.getD_contents]
  exact if_pos (Nat.lt_of_lt_of_le within onPath.capacity_le)

theorem Over.load_eq (onPath : r.Over path p) (mapped : r.mapped = some m) {o : Nat}
    (within : o < r.capacity) : p.load m o = p.files.byteAt path o := by
  rw [onPath.byte_eq within, Region.backing, ← onPath.shows m mapped]
  rfl

theorem Over.countUsed (onPath : r.Over path p) (len : Nat) : (r.countUsed len).Over path p :=
  ⟨(countUsed_advanced onPath.toSound len).sound, onPath.leads, onPath.untrimmed⟩

theorem Over.reserve {least : Nat} {result : Except RegionError Unit} (onPath : r.Over path p)
    (reserved : r.reserve least p = (result, r', p')) : p.Steady path p' ∧ r'.Over path p' := by
  obtain ⟨grown, sound, -, -⟩ := reserve_correct onPath.toSound reserved
  have names := grown.onlyFile.names
  refine ⟨.of_names names onPath.leads grown.longer.size_le grown.longer.getD_contents, sound, ?_, ?_⟩
  · rw [names.openExisting, onPath.leads, grown.same.handle]
  · rw [grown.same.setup]
    exact onPath.untrimmed

/-- Opening a region over the file of a path leaves what the file holds, whether or not it succeeds. -/
theorem open_over {result : Except RegionError Region} (untrimmed : setup.trimOnClose = false)
    (opened : Region.open path setup p = (result, p')) :
    p.Steady path p' ∧ ∀ r, result = .ok r → r.Over path p' := by
  have made := Platform.Steady.of_openOrCreate path p
  have correct := p.files.openOrCreate_correct path
  unfold Region.open at opened
  rcases opening : TrackedFile.openOrCreate p.files path with ⟨found, files⟩
  rw [opening] at made correct opened
  cases found with
  | error e =>
    cases opened
    exact ⟨made, fun _ => nofun⟩
  | ok f =>
    obtain ⟨_, writable, known, leads, _, _⟩ := correct
    obtain ⟨only, correct⟩ := ofTrackedFile_correct (p := { p with files }) writable known opened
    have steady := Platform.Steady.of_names (p := { p with files }) only.names leads
    cases result with
    | error e =>
      obtain ⟨g, longer, same | cut⟩ := correct.left
      · rw [same] at steady
        exact ⟨made.trans (steady longer.size_le longer.getD_contents), fun _ => nofun⟩
      · rw [cut] at steady
        exact ⟨made.trans (steady (Nat.le_refl _) longer.getD_contents_cut), fun _ => nofun⟩
    | ok r =>
      have here : r.backing p' = p'.files.file f.handle.file := by rw [backing, fileId, correct.handle]
      have longer := correct.longer
      rw [here] at longer
      refine ⟨made.trans (steady longer.size_le longer.getD_contents), ?_⟩
      rintro r ⟨⟩
      refine ⟨correct.clear.toSound, ?_, by rw [correct.setup_eq, untrimmed]⟩
      rw [only.names.openExisting, correct.handle]
      exact leads

theorem Over.flush (onPath : r.Over path p) (f : Flush) : p.Steady path (r.flush f p).2 := by
  have settled := flush_settled (p := p) onPath.shows f
  exact .of_names settled.onlyFile.names onPath.leads (Nat.le_of_eq settled.flushed.size_eq.symm)
    settled.flushed.getD_contents

theorem Over.close (onPath : r.Over path p) : p.Steady path (r.close p).2.2 :=
  .of_files ((close_ended onPath.shows).untrimmed onPath.untrimmed)

/-- Bytes that are stored in the mapping of a region lie over the file of the path. -/
theorem Over.store {offset : Nat} {data : Bytes} (onPath : r.Over path p) (mapped : r.mapped = some m)
    (within : offset + data.size ≤ r.capacity) :
    p.Retains path (p.store m offset data) ∧ ∀ o,
      (p.store m offset data).files.byteAt path o =
        lay (p.files.byteAt path) offset data o := by
  have only := p.onlyFile_setFile m.file ((p.files.file m.file).overlay offset data)
  have shows : m.file = r.file.handle.file := onPath.shows m mapped
  have overlaid : (p.store m offset data).files.file r.file.handle.file =
      (p.files.file r.file.handle.file).overlay offset data := by
    rw [← shows]
    exact FileSystem.file_setFile_self ..
  have leads : (p.store m offset data).files.openExisting path true = .ok r.file.handle := by
    rw [← onPath.leads]
    exact only.names.openExisting path true
  refine ⟨.of_names only.names onPath.leads ?_, fun o => ?_⟩
  · rw [← File.size_overlay _ offset data, ← overlaid]
  · have reach : r.capacity ≤ (p.files.file r.file.handle.file).size := onPath.capacity_le
    rw [FileSystem.byteAt_of_leads leads, overlaid, lay, FileSystem.byteAt_of_leads onPath.leads,
      File.getD_contents, File.getD_contents, File.size_overlay, File.byte_overlay]
    by_cases here : offset ≤ o ∧ o < offset + data.size
    · rw [if_pos here, if_pos here, if_pos (by omega)]
    · rw [if_neg here, if_neg here]

end Region

/-! ## One index -/

namespace SharedIndex

variable {x x' : SharedIndex} {p p' : Platform} {path : Path} {r : Region} {slot : Slot}
  {contents : Nat → UInt8}

/-- An index over the file of a path. -/
structure Over (x : SharedIndex) (path : Path) (p : Platform) : Prop where
  path_eq : x.path = path
  untrimmed : x.setup.trimOnClose = false
  region : ∀ r, x.region? = some r → r.Over path p

theorem over_new (path : Path) (setup : RegionSetup) (baseSize : Nat) (p : Platform) :
    (new path setup baseSize).Over path p := ⟨rfl, rfl, fun _ => nofun⟩

theorem Over.of_retains (onPath : x.Over path p) (retains : p.Retains path p') : x.Over path p' :=
  ⟨onPath.path_eq, onPath.untrimmed, fun r found => (onPath.region r found).of_retains retains⟩

theorem Over.of_same (onPath : x.Over path p) (same : x.SameIndex x') (later : x'.region? = some r)
    (region : r.Over path p') : x'.Over path p' := by
  refine ⟨same.path.trans onPath.path_eq, by rw [same.setup, onPath.untrimmed], fun other found => ?_⟩
  rw [later] at found
  cases found
  exact region

theorem MappedIn.onPath {result : Except ProviderError (Option Slot)}
    (mapped : x.MappedIn r slot p result x' p') (onPath : r.Over path p) :
    p.Steady path p' ∧ ∃ r', x'.region? = some r' ∧ r'.Over path p' := by
  cases mapped with
  | covered _ => exact ⟨.refl path p, _, rfl, onPath.countUsed _⟩
  | absent _ => exact ⟨.refl path p, r, rfl, onPath⟩
  | failed _ reserving =>
    obtain ⟨steady, onPath'⟩ := onPath.reserve reserving
    exact ⟨steady, _, rfl, onPath'⟩
  | grown _ reserving =>
    obtain ⟨steady, onPath'⟩ := onPath.reserve reserving
    exact ⟨steady, _, rfl, onPath'.countUsed _⟩

theorem Over.requestSlot {index slotSize : Nat} {extend : Bool}
    {result : Except ProviderError (Option Slot)} (onPath : x.Over path p)
    (requested : x.requestSlot index slotSize extend p = (result, x', p')) :
    p.Steady path p' ∧ x'.Over path p' := by
  obtain rfl := onPath.path_eq
  cases requestSlot_answered requested with
  | refused _ => exact ⟨.refl _ p, onPath⟩
  | unopened absent trims opening =>
    have steady := (Region.open_over (by rw [trims, onPath.untrimmed]) opening).1
    exact ⟨steady, onPath.of_retains steady.retains⟩
  | mapped state _ mapped =>
    obtain ⟨steady, r', later, region⟩ := mapped.onPath (onPath.region _ (region?_of_state state))
    exact ⟨steady, onPath.of_same mapped.advanced.1 later region⟩
  | opened absent _ _ trims _ opening mapped =>
    obtain ⟨made, opened⟩ := Region.open_over (by rw [trims, onPath.untrimmed]) opening
    obtain ⟨steady, r', later, region⟩ := mapped.onPath (opened _ rfl)
    exact ⟨made.trans steady, onPath.of_same mapped.advanced.1 later region⟩

/-- The words of a slot are a range of the mapping of the index. -/
theorem wordsOf?_eq_some {words : WordView} (viewed : x.wordsOf? slot = some words) :
    ∃ r m, x.region? = some r ∧ r.mapped = some m ∧ slot.offset + slot.len ≤ r.capacity ∧
      words = ⟨m, slot.offset, slot.len / Region.wordSize⟩ := by
  obtain ⟨r, found, viewed⟩ := Option.bind_eq_some_iff.mp viewed
  unfold Region.words? at viewed
  split at viewed
  · rename_i fits
    split at viewed
    · rename_i m mapped
      split at viewed
      · cases viewed
        refine ⟨r, m, found, mapped, fits.2.1, ?_⟩
        rw [Slot.span, Nat.add_sub_cancel_left]
      · cases viewed
    · cases viewed
  · cases viewed

theorem Over.storeWord {i word : Nat} (onPath : x.Over path p)
    (stored : x.storeWord? slot i word p = some p') :
    p.Retains path p' ∧ ∀ o, p'.files.byteAt path o =
      lay (p.files.byteAt path) (slot.offset + i * Region.wordSize)
        (WordView.bytesOf word) o := by
  unfold storeWord? at stored
  split at stored
  · rename_i words viewed
    split at stored
    · rename_i inside
      cases stored
      obtain ⟨r, m, found, mapped, within, rfl⟩ := wordsOf?_eq_some viewed
      refine (onPath.region r found).store mapped ?_
      have whole : (WordView.bytesOf word).size = Region.wordSize := rfl
      rw [whole]
      unfold Region.wordSize at *
      dsimp only at inside ⊢
      omega
    · cases stored
  · cases stored

theorem Over.fillSlot {byte : UInt8} {n : Nat} (onPath : x.Over path p)
    (filled : x.fillSlot? slot byte p = some (n, p')) :
    p.Retains path p' ∧ ∀ o, p'.files.byteAt path o =
      lay (p.files.byteAt path) slot.offset (Array.replicate slot.len byte) o := by
  unfold fillSlot? at filled
  split at filled
  · cases filled
  · rename_i r found
    obtain ⟨q, poked, same⟩ := Option.map_eq_some_iff.mp filled
    cases same
    unfold Region.poke? at poked
    split at poked
    · rename_i within
      split at poked
      · rename_i m mapped
        cases poked
        exact (onPath.region r found).store mapped within
      · rename_i unmapped
        cases poked
        have nothing : r.capacity = 0 := by rw [Region.capacity, unmapped]
        refine ⟨(Platform.Steady.refl path p).retains, fun o => ?_⟩
        rw [lay, if_neg (by omega)]
    · cases poked

theorem Over.barrier (onPath : x.Over path p) : p.Steady path (x.barrier p).2 := by
  unfold SharedIndex.barrier
  split
  · exact .refl path p
  · rename_i r found
    have steady := (onPath.region r found).flush ⟨r.medium, ⟨0, r.capacity⟩⟩
    unfold Region.flushWhole
    split <;> rename_i flushed <;> rw [flushed] at steady <;> exact steady

/-- An index that is unmapped leaves its file as it is. -/
theorem Over.unmap (onPath : x.Over path p) :
    p.Steady path (x.unmap false p).2.2 ∧ (x.unmap false p).2.1.Over path (x.unmap false p).2.2 := by
  cases state : x.state with
  | unallocated | unmapped =>
    rw [unmap_of_none (by rw [region?, state])]
    exact ⟨.refl path p, onPath⟩
  | allocated r size =>
    have region := onPath.region r (region?_of_state state)
    simp only [SharedIndex.unmap, state]
    exact ⟨region.close, onPath.path_eq, onPath.untrimmed, fun _ found => by cases found⟩

/-- What is asked of an index over the file of a path leaves the file as the account says. -/
theorem Over.serve (onPath : x.Over path p) {request : IndexRequest} (stays : request ≠ .unmap true) :
    p.Retains path (x.serve p request).2.2 ∧ (x.serve p request).2.1.Over path (x.serve p request).2.2 ∧
      ∀ o, (x.serve p request).2.2.files.byteAt path o =
        request.leaves (p.files.byteAt path) (x.serve p request).1 o := by
  cases request with
  | slot index slotSize extend =>
    have requested : x.requestSlot index slotSize extend p = _ := rfl
    obtain ⟨steady, onPath'⟩ := onPath.requestSlot requested
    exact ⟨steady.retains, onPath', steady.bytes⟩
  | storeWord slot i word =>
    unfold SharedIndex.serve
    dsimp only
    split
    · rename_i stored
      obtain ⟨retains, bytes⟩ := onPath.storeWord stored
      exact ⟨retains, onPath.of_retains retains, bytes⟩
    · exact ⟨(Platform.Steady.refl path p).retains, onPath, fun _ => rfl⟩
  | fill slot byte =>
    unfold SharedIndex.serve
    dsimp only
    split
    · rename_i filled
      obtain ⟨retains, bytes⟩ := onPath.fillSlot filled
      exact ⟨retains, onPath.of_retains retains, bytes⟩
    · exact ⟨(Platform.Steady.refl path p).retains, onPath, fun _ => rfl⟩
  | barrier =>
    have steady := onPath.barrier
    exact ⟨steady.retains, onPath.of_retains steady.retains, steady.bytes⟩
  | unmap delete =>
    cases delete with
    | true => exact absurd rfl stays
    | false =>
      obtain ⟨steady, onPath'⟩ := onPath.unmap
      exact ⟨steady.retains, onPath', steady.bytes⟩

/-- What an index over the file of a path shows is what the file holds. -/
theorem Over.shows (onPath : x.Over path p)
    (holds : ∀ o, p.files.byteAt path o = contents o) : x.Shows contents p := by
  constructor
  case bytes =>
    intro slot bytes read
    obtain ⟨r, found, read⟩ := Option.bind_eq_some_iff.mp read
    unfold Region.bytes? at read
    rw [Slot.span, Nat.add_sub_cancel_left] at read
    split at read
    · rename_i fits
      have within : slot.offset + slot.len ≤ r.capacity := fits.2
      split at read
      · rename_i m mapped
        cases read
        refine ⟨Patchwork.size_slice .., fun i inside => ?_⟩
        rw [Platform.loadBytes, File.getD_slice, if_pos inside, ← holds]
        exact (onPath.region r found).load_eq mapped
          (Nat.lt_of_lt_of_le (Nat.add_lt_add_left inside _) within)
      · rename_i unmapped
        cases read
        have nothing : r.capacity = 0 := by rw [Region.capacity, unmapped]
        have empty : slot.len = 0 := by omega
        exact ⟨empty.symm, fun i inside => absurd inside (by omega)⟩
    · cases read
  case words =>
    intro slot words viewed
    obtain ⟨r, m, found, mapped, within, rfl⟩ := wordsOf?_eq_some viewed
    refine ⟨rfl, fun i inside => ?_⟩
    have here (k : Nat) (small : k < Region.wordSize) :
        p.load m (slot.offset + i * Region.wordSize + k) =
          contents (slot.offset + i * Region.wordSize + k) := by
      rw [← holds]
      refine (onPath.region r found).load_eq mapped ?_
      dsimp only at inside
      unfold Region.wordSize at *
      omega
    unfold WordView.load wordAt
    dsimp only
    rw [here 0 (by decide), here 1 (by decide), here 2 (by decide), here 3 (by decide)]
    rfl

end SharedIndex

namespace Indexes

variable {s : Indexes} {path : Path} {name : String} {x : SharedIndex} {contents : Nat → UInt8}
  {e : IndexEvent} {o : Nat}

/-- All indexes are over the file of a path, which holds what the account says. -/
structure Faithful (path : Path) (s : Indexes) (contents : Nat → UInt8) : Prop where
  holds : ∀ o, s.state.files.byteAt path o = contents o
  onPath : ∀ name x, s.find? name = some x → x.Over path s.state

theorem Faithful.start (path : Path) (p : Platform) :
    Faithful path (start p) (p.files.byteAt path) := by
  refine ⟨fun _ => rfl, fun name x found => ?_⟩
  cases found

theorem Faithful.drop (faithful : Faithful path s contents) (name : String) :
    Faithful path (s.drop name SharedIndex.drop) contents := by
  have there := s.find?_drop name SharedIndex.drop
  cases found : s.find? name with
  | none =>
    rw [Session.drop, found]
    exact faithful
  | some x =>
    have steady := (faithful.onPath name x found).unmap.1
    have state : (s.drop name SharedIndex.drop).state = (x.unmap false s.state).2.2 := by
      rw [Session.drop, found]
      rfl
    refine ⟨fun o => ?_, fun other y found' => ?_⟩
    · rw [state, steady.bytes, faithful.holds]
    · rw [there] at found'
      split at found'
      · cases found'
      · rw [state]
        exact (faithful.onPath other y found').of_retains steady.retains

theorem step_faithful (faithful : Faithful path s contents) (sharing : e.sharing path = true) :
    Faithful path (s.step e).2 (s.keep contents e) := by
  cases e with
  | new name other setup baseSize =>
    obtain rfl : other = path := by simpa [IndexEvent.sharing] using sharing
    have dropped := faithful.drop name
    refine ⟨dropped.holds, fun key x found => ?_⟩
    have there := (Session.find?_put _ name _ key).symm.trans found
    split at there
    · cases there
      exact SharedIndex.over_new other setup baseSize _
    · exact dropped.onPath key x there
  | drop name => exact faithful.drop name
  | ask name request =>
    cases found : s.find? name with
    | none =>
      unfold keep
      rw [step_ask_of_none found]
      exact faithful
    | some x =>
      have stays : request ≠ .unmap true := fun same => by simp [IndexEvent.sharing, same] at sharing
      obtain ⟨retains, onPath, bytes⟩ := (faithful.onPath name x found).serve stays
      have account : s.state.files.byteAt path = contents :=
        funext faithful.holds
      unfold keep
      rw [step_ask found]
      rw [account] at bytes
      refine ⟨bytes, fun other y found' => ?_⟩
      have there := (Session.find?_update found _).symm.trans found'
      split at there
      · cases there
        exact onPath
      · exact (faithful.onPath other y there).of_retains retains

theorem faithful_run {events : List IndexEvent} (faithful : Faithful path s contents)
    (sharing : ∀ e ∈ events, e.sharing path = true) :
    Faithful path (s.run events) (s.stored contents events) := by
  induction events generalizing s contents with
  | nil => exact faithful
  | cons e rest ih =>
    exact ih (step_faithful faithful (sharing e List.mem_cons_self)) fun other member =>
      sharing other (List.mem_cons_of_mem _ member)

/-! ## The account -/

theorem stored_append (s : Indexes) (contents : Nat → UInt8) (before after : List IndexEvent) :
    s.stored contents (before ++ after) = (s.run before).stored (s.stored contents before) after := by
  induction before generalizing s contents with
  | nil => rfl
  | cons e rest ih => exact ih (s.step e).2 (s.keep contents e)

theorem keep_of_sparing (sparing : e.sparing o = true) : s.keep contents e o = contents o := by
  cases e with
  | new name other setup baseSize => rfl
  | drop name => rfl
  | ask name request =>
    unfold IndexEvent.sparing at sparing
    unfold keep IndexRequest.leaves
    dsimp only at sparing ⊢
    split
    · split
      · rename_i offset data stores
        rw [stores] at sparing
        have apart : o < offset ∨ offset + data.size ≤ o := by simpa using sparing
        exact if_neg (by omega)
      · rfl
    · rfl

/-- The account changes at an offset only by what is stored there. -/
theorem stored_of_sparing {events : List IndexEvent} (sparing : ∀ e ∈ events, e.sparing o = true) :
    s.stored contents events o = contents o := by
  induction events generalizing s contents with
  | nil => rfl
  | cons e rest ih =>
    refine (ih fun other member => sparing other (List.mem_cons_of_mem _ member)).trans ?_
    exact keep_of_sparing (sparing e List.mem_cons_self)

/-- A word that is stored reads back, as far as it fits in a word. -/
theorem wordAt_lay (contents : Nat → UInt8) (o word : Nat) :
    wordAt (lay contents o (WordView.bytesOf word)) o = word % 0x100000000 := by
  have here (k : Nat) (small : k < 4) :
      lay contents o (WordView.bytesOf word) (o + k) = (WordView.bytesOf word).getD k 0 := by
    have inside : o ≤ o + k ∧ o + k < o + (WordView.bytesOf word).size := ⟨Nat.le_add_right .., by
      show o + k < o + 4
      omega⟩
    rw [lay, if_pos inside, Nat.add_sub_cancel_left]
  have zero := here 0 (by decide)
  rw [Nat.add_zero] at zero
  rw [wordAt, zero, here 1 (by decide), here 2 (by decide), here 3 (by decide)]
  simp [WordView.bytesOf, Array.getD]
  omega

/-- A word is there as it was stored until something else is stored at its bytes. -/
theorem wordAt_stored {slot : Slot} {i word : Nat} {after : List IndexEvent}
    (stores : (s.step (.ask name (.storeWord slot i word))).1.isStored = true)
    (sparing : ∀ k < Region.wordSize, ∀ e ∈ after,
      e.sparing (slot.offset + i * Region.wordSize + k) = true) :
    wordAt (s.stored contents (.ask name (.storeWord slot i word) :: after))
      (slot.offset + i * Region.wordSize) = word % 0x100000000 := by
  have here (k : Nat) (small : k < Region.wordSize) :
      s.stored contents (.ask name (.storeWord slot i word) :: after)
          (slot.offset + i * Region.wordSize + k) =
        lay contents (slot.offset + i * Region.wordSize) (WordView.bytesOf word)
          (slot.offset + i * Region.wordSize + k) :=
    (stored_of_sparing (sparing k small)).trans (if_pos stores)
  rw [← wordAt_lay contents (slot.offset + i * Region.wordSize) word, wordAt, wordAt]
  rw [here 1 (by decide), here 2 (by decide), here 3 (by decide)]
  exact congrArg (fun b : UInt8 => b.toNat + _ + _ + _) (here 0 (by decide))

/-! ## Runs -/

/-- What was handed out since the index was last unmapped resolves. -/
theorem Sized.resolves {slots : String → List Slot} (sized : s.Sized slots) (held : s.Held)
    (found : s.find? name = some x) {slot : Slot} (member : slot ∈ slots name) :
    (x.wordsOf? slot).isSome = true ∧ (x.readSlot? slot s.state).isSome = true := by
  cases state : x.state with
  | unallocated | unmapped =>
    have absent : x.region? = none := by rw [SharedIndex.region?, state]
    rw [(SharedIndex.sized_of_none absent).mp (sized name x found)] at member
    cases member
  | allocated r size =>
    obtain ⟨words, bytes, viewed, -, read, -⟩ := (sized.geometry held found state).resolves slot member
    rw [viewed, read]
    exact ⟨rfl, rfl⟩

/-- Whatever indexes over one file do, and whatever fails on the way, each shows through its slots what
was stored last through any of them, and what the file held before where nothing was stored. No byte changes
but by being stored, so that what was stored is there for every index that is mapped later. -/
theorem run_contents (files : FileSystem) (plan : CallPlan) (path : Path) (events : List IndexEvent)
    (sharing : ∀ e ∈ events, e.sharing path = true) :
    (∀ name x, ((start { files, plan }).run events).find? name = some x →
      x.Shows ((start { files, plan }).stored (files.byteAt path) events)
        ((start { files, plan }).run events).state ∧
      ∀ slot ∈ (start { files, plan }).handedOut (fun _ => []) events name,
        (x.wordsOf? slot).isSome = true ∧
          (x.readSlot? slot ((start { files, plan }).run events).state).isSome = true) ∧
    (∀ o, ((start { files, plan }).run events).state.files.byteAt path o =
      (start { files, plan }).stored (files.byteAt path) events o) ∧
    ∀ later : List IndexEvent, (∀ e ∈ later, e.sharing path = true) →
      ∀ o, (∀ e ∈ later, e.sparing o = true) →
        ((start { files, plan }).run (events ++ later)).state.files.byteAt path o =
          ((start { files, plan }).run events).state.files.byteAt path o := by
  have faithful := faithful_run (Faithful.start path { files, plan }) sharing
  have held := run_held (Held.start files plan) events
  have sized := run_sized (Held.start files plan) (sized_start { files, plan } fun _ => []) events
  refine ⟨fun name x found => ⟨(faithful.onPath name x found).shows faithful.holds, fun slot member =>
    sized.resolves held found member⟩, faithful.holds, fun later sharing' o sparing => ?_⟩
  rw [run_append, (faithful_run faithful sharing').holds o, stored_of_sparing sparing, faithful.holds]

/-- For instance a word that one index stores is there for another that grows, though the one that stored
it is unmapped. -/
theorem stored_word_shown :
    let s : Indexes := start { files := .empty, plan := {} }
    let path : Path := ⟨[0x78]⟩
    let before : List IndexEvent := [.new "a" path {} 8, .ask "a" (.slot 0 8 true), .new "b" path {} 8,
      .ask "b" (.slot 0 8 true)]
    let after : List IndexEvent := [.ask "a" (.unmap false), .ask "b" (.slot 3 8 true)]
    let events := before ++ .ask "a" (.storeWord ⟨0, 0, 8⟩ 1 0x01020304) :: after
    (∀ e ∈ events, e.sharing path = true) ∧ ∃ x words, (s.run events).find? "b" = some x ∧
      x.wordsOf? ⟨0, 0, 8⟩ = some words ∧ words.load 1 (s.run events).state = 0x01020304 := by
  intro s path before after events
  have sharing : ∀ e ∈ events, e.sharing path = true := by decide
  have there : ((s.run events).find? "b").isSome = true := by
    dsimp +zetaDelta only
    cbv
  have slots : s.handedOut (fun _ => []) events "b" = [⟨3, 24, 8⟩, ⟨0, 0, 8⟩] := by
    dsimp +zetaDelta only
    cbv
  have stores : ((s.run before).step (.ask "a" (.storeWord ⟨0, 0, 8⟩ 1 0x01020304))).1.isStored =
      true := by
    dsimp +zetaDelta only
    cbv
  have account : wordAt (s.stored (FileSystem.empty.byteAt path) events) 4 = 0x01020304 := by
    rw [stored_append]
    exact wordAt_stored stores (by decide)
  obtain ⟨x, found⟩ := Option.isSome_iff_exists.mp there
  obtain ⟨shows, resolves⟩ := (run_contents .empty {} path events sharing).1 "b" x found
  have member : (⟨0, 0, 8⟩ : Slot) ∈ s.handedOut (fun _ => []) events "b" := by
    rw [slots]
    decide
  obtain ⟨words, viewed⟩ := Option.isSome_iff_exists.mp (resolves _ member).1
  obtain ⟨count, load⟩ := shows.words _ words viewed
  refine ⟨sharing, x, words, found, viewed, (load 1 ?_).trans account⟩
  rw [count]
  decide

end Indexes
end MappedStorage
