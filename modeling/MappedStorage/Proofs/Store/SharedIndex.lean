import MappedStorage.Proofs.Mapping.Extent
import MappedStorage.Store.SharedIndex

/-!
What the operations of a shared index do to its region. A request for a slot opens a region if there is
none and lets it grow (`SharedIndex.Requested`), storing and flushing leave every length
(`fillSlot_lengthens`, `barrier_lengthens`), and unmapping closes the region, which leaves its file as
long as it is (`unmap_lengthens`).
-/

namespace MappedStorage.SharedIndex

/-- An index at two times: the same file, opened the same way. -/
structure SameIndex (x x' : SharedIndex) : Prop where
  path : x'.path = x.path
  setup : x'.setup = x.setup

/-- What a request for a slot does, whether or not it succeeds. -/
inductive Requested (x : SharedIndex) (p : Platform) : SharedIndex → Platform → Prop
  | idle : Requested x p x p
  /-- The region could not be opened. -/
  | failed {setup : RegionSetup} {e : RegionError} {p' : Platform} (absent : x.region? = none)
      (opening : Region.open x.path setup p = (.error e, p')) : Requested x p x p'
  | mapped {r r' : Region} {x' : SharedIndex} {p' : Platform} (found : x.region? = some r)
      (same : x.SameIndex x') (later : x'.region? = some r')
      (advanced : r.Sound p → r.Advanced p r' p') : Requested x p x' p'
  | opened {setup : RegionSetup} {r r' : Region} {x' : SharedIndex} {p₁ p' : Platform}
      (absent : x.region? = none) (trims : setup.trimOnClose = x.setup.trimOnClose)
      (opening : Region.open x.path setup p = (.ok r, p₁)) (same : x.SameIndex x')
      (later : x'.region? = some r') (advanced : r.Sound p₁ → r.Advanced p₁ r' p') :
      Requested x p x' p'

/-- The slot at an index, where slots have one size. -/
def slotAt (index slotSize : Nat) : Slot := ⟨index, index * slotSize, slotSize⟩

/-- How a slot is mapped in a region: it is there already, the region grows to it, or it stays away. -/
inductive MappedIn (x : SharedIndex) (r : Region) (slot : Slot) (p : Platform) :
    Except ProviderError (Option Slot) → SharedIndex → Platform → Prop
  | covered (enough : slot.offset + slot.len ≤ r.capacity) : MappedIn x r slot p (.ok (some slot))
      { x with state := .allocated (r.countUsed (slot.offset + slot.len)) slot.len } p
  | absent (short : r.capacity < slot.offset + slot.len) :
      MappedIn x r slot p (.ok none) { x with state := .allocated r slot.len } p
  | failed {e : RegionError} {r' : Region} {p' : Platform}
      (short : r.capacity < slot.offset + slot.len)
      (reserving : r.reserve (slot.offset + slot.len) p = (.error e, r', p')) :
      MappedIn x r slot p (.error (.ofRegion .indexMapping e))
        { x with state := .allocated r' slot.len } p'
  | grown {r' : Region} {p' : Platform} (short : r.capacity < slot.offset + slot.len)
      (reserving : r.reserve (slot.offset + slot.len) p = (.ok (), r', p')) :
      MappedIn x r slot p (.ok (some slot))
        { x with state := .allocated (r'.countUsed (slot.offset + slot.len)) slot.len } p'

/-- How a request for a slot is answered. A region is opened only if `extend` says so, with whole slots
as its granules, and then the slot is mapped in it like in one that is open. -/
inductive Answered (x : SharedIndex) (index slotSize : Nat) (extend : Bool) (p : Platform) :
    Except ProviderError (Option Slot) → SharedIndex → Platform → Prop
  | refused {result : Except ProviderError (Option Slot)} (none : ∀ slot, result ≠ .ok (some slot)) :
      Answered x index slotSize extend p result x p
  | unopened {setup : RegionSetup} {e : RegionError} {e' : ProviderError} {p' : Platform}
      (absent : x.region? = none) (trims : setup.trimOnClose = x.setup.trimOnClose)
      (opening : Region.open x.path setup p = (.error e, p')) :
      Answered x index slotSize extend p (.error e') x p'
  | mapped {r : Region} {result : Except ProviderError (Option Slot)} {x' : SharedIndex} {p' : Platform}
      (state : x.state = .allocated r slotSize) (size : 0 < slotSize ∧ slotSize % Region.wordSize = 0)
      (mapped : x.MappedIn r (slotAt index slotSize) p result x' p') :
      Answered x index slotSize extend p result x' p'
  | opened {setup : RegionSetup} {r : Region} {result : Except ProviderError (Option Slot)}
      {x' : SharedIndex} {p₁ p' : Platform} (absent : x.region? = none) (extending : extend = true)
      (size : 0 < slotSize ∧ slotSize % Region.wordSize = 0)
      (trims : setup.trimOnClose = x.setup.trimOnClose) (granule : setup.growth.granule = slotSize)
      (opening : Region.open x.path setup p = (.ok r, p₁))
      (mapped : x.MappedIn r (slotAt index slotSize) p₁ result x' p') :
      Answered x index slotSize extend p result x' p'

variable {x x' : SharedIndex} {p p' : Platform} {r : Region} {slot : Slot}
  {index slotSize required : Nat} {extend : Bool} {result : Except ProviderError (Option Slot)}

/-! ## Requests -/

theorem region?_of_state {state : Nat} (allocated : x.state = .allocated r state) :
    x.region? = some r := by rw [region?, allocated]

theorem slotSize?_eq_some {size : Nat} (known : x.slotSize? = some size) :
    ∃ r, x.state = .allocated r size := by
  unfold slotSize? at known
  split at known
  · rename_i r slotSize state
    cases known
    exact ⟨r, state⟩
  · cases known

theorem region?_eq_none (unallocated : ∀ r size, x.state ≠ .allocated r size) : x.region? = none := by
  unfold region?
  split
  · rename_i r size state
    exact absurd state (unallocated r size)
  · rfl

theorem required?_eq_some (counted : required? index slotSize = some required) :
    required = (slotAt index slotSize).offset + (slotAt index slotSize).len := by
  unfold required? at counted
  obtain ⟨next, added, multiplied⟩ := Option.bind_eq_some_iff.mp counted
  obtain ⟨rfl, -⟩ := Word.add?_eq_some_iff.mp added
  obtain ⟨rfl, -⟩ := Word.mul?_eq_some_iff.mp multiplied
  exact Nat.succ_mul index slotSize

theorem mapIn_correct (counted : required? index slotSize = some required)
    (mapped : x.mapIn r index slotSize required extend p = (result, x', p')) :
    x.MappedIn r (slotAt index slotSize) p result x' p' := by
  obtain rfl := required?_eq_some counted
  have here : (⟨index, (slotAt index slotSize).offset + (slotAt index slotSize).len - slotSize, slotSize⟩ :
      Slot) = slotAt index slotSize := by simp [slotAt]
  unfold mapIn at mapped
  rw [here] at mapped
  by_cases enough : (slotAt index slotSize).offset + (slotAt index slotSize).len ≤ r.capacity
  · rw [if_pos enough] at mapped
    cases mapped
    exact .covered enough
  · have short := Nat.lt_of_not_le enough
    rw [if_neg enough] at mapped
    cases extend with
    | false =>
      cases mapped
      exact .absent short
    | true =>
      rw [if_pos rfl] at mapped
      rcases reserving : r.reserve ((slotAt index slotSize).offset + (slotAt index slotSize).len) p with
        ⟨reserved, r', q⟩
      rw [reserving] at mapped
      cases reserved <;> cases mapped
      · exact .failed short reserving
      · exact .grown short reserving

/-- An index is established by opening its region with slots as granules. -/
theorem establish_correct {outcome : Except ProviderError Region} (positive : 0 < slotSize)
    (established : x.establish slotSize p = (outcome, p')) :
    ∃ setup : RegionSetup, setup.trimOnClose = x.setup.trimOnClose ∧ setup.growth.granule = slotSize ∧
      match outcome with
      | .ok r => Region.open x.path setup p = (.ok r, p')
      | .error _ => ∃ e, Region.open x.path setup p = (.error e, p') := by
  unfold establish GrowthRule.inGranulesOf at established
  rw [dif_pos positive] at established
  refine ⟨{ x.setup with
    initialCapacity := x.baseSize
    growth := { x.setup.growth with granule := slotSize, granule_pos := positive } }, rfl, rfl, ?_⟩
  dsimp only at established
  split at established <;> rename_i opening <;> cases established
  · exact ⟨_, opening⟩
  · exact opening

theorem requestSlot_answered (requested : x.requestSlot index slotSize extend p = (result, x', p')) :
    x.Answered index slotSize extend p result x' p' := by
  unfold requestSlot at requested
  split at requested
  · cases requested
    exact .refused nofun
  · rename_i size
    have fits : 0 < slotSize ∧ slotSize % Region.wordSize = 0 := by omega
    split at requested
    · rename_i r established state
      split at requested
      · cases requested
        exact .refused nofun
      · rename_i same
        obtain rfl : established = slotSize := Decidable.not_not.mp same
        split at requested
        · cases requested
          exact .refused nofun
        · rename_i required counted
          exact .mapped state fits (mapIn_correct counted requested)
    · rename_i unallocated
      have absent : x.region? = none := region?_eq_none unallocated
      split at requested
      · cases requested
        exact .refused nofun
      · rename_i required counted
        cases extend with
        | false =>
          cases requested
          exact .refused nofun
        | true =>
          rw [if_pos rfl] at requested
          split at requested
          · rename_i establishing
            cases requested
            obtain ⟨setup, trims, -, e, opening⟩ := establish_correct fits.1 establishing
            exact .unopened absent trims opening
          · rename_i establishing
            obtain ⟨setup, trims, granule, opening⟩ := establish_correct fits.1 establishing
            exact .opened absent rfl fits trims granule opening (mapIn_correct counted requested)

theorem MappedIn.advanced (mapped : x.MappedIn r slot p result x' p') :
    x.SameIndex x' ∧ ∃ r', x'.region? = some r' ∧ (r.Sound p → r.Advanced p r' p') := by
  cases mapped with
  | covered _ => exact ⟨⟨rfl, rfl⟩, _, rfl, fun sound => Region.countUsed_advanced sound _⟩
  | absent _ => exact ⟨⟨rfl, rfl⟩, r, rfl, fun sound => .refl sound⟩
  | failed _ reserving =>
    exact ⟨⟨rfl, rfl⟩, _, rfl, fun sound => Region.reserve_advanced sound reserving⟩
  | grown _ reserving =>
    refine ⟨⟨rfl, rfl⟩, _, rfl, fun sound => ?_⟩
    have advanced := Region.reserve_advanced sound reserving
    exact advanced.trans (Region.countUsed_advanced advanced.sound _)

theorem requestSlot_correct (requested : x.requestSlot index slotSize extend p = (result, x', p')) :
    x.Requested p x' p' := by
  cases requestSlot_answered requested with
  | refused _ => exact .idle
  | unopened absent _ opening => exact .failed absent opening
  | mapped state _ mapped =>
    obtain ⟨same, r', later, advanced⟩ := mapped.advanced
    exact .mapped (region?_of_state state) same later advanced
  | opened absent _ _ trims _ opening mapped =>
    obtain ⟨same, r', later, advanced⟩ := mapped.advanced
    exact .opened absent trims opening same later advanced

/-! ## Bytes -/

theorem fillSlot_lengthens {slot : Slot} {byte : UInt8} {n : Nat}
    (filled : x.fillSlot? slot byte p = some (n, p')) : p.files.Lengthens p'.files := by
  rw [fillSlot?] at filled
  split at filled
  · cases filled
  · rename_i r found
    obtain ⟨q, poked, same⟩ := Option.map_eq_some_iff.mp filled
    cases same
    rw [Region.poke?] at poked
    split at poked
    · split at poked
      · cases poked
        exact Region.store_lengthens ..
      · cases poked
        exact .refl _
    · cases poked

theorem barrier_lengthens (x : SharedIndex) (p : Platform) :
    p.files.Lengthens (x.barrier p).2.files := by
  rw [barrier]
  split
  · exact .refl _
  · rename_i r _
    have longer := r.flush_lengthens ⟨r.medium, ⟨0, r.capacity⟩⟩ p
    split <;> rename_i outcome <;> rw [Region.flushWhole] at outcome <;> rw [outcome] at longer <;>
      exact longer

theorem wordStore_lengthens (words : WordView) (i word : Nat) (p : Platform) :
    p.files.Lengthens (words.store i word p).files := Region.store_lengthens ..

/-- Filling a slot changes the file of the index and no other. -/
theorem fillSlot_onlyFile {slot : Slot} {byte : UInt8} {n : Nat} (found : x.region? = some r)
    (shows : ∀ m ∈ r.mapped, m.file = r.fileId)
    (filled : x.fillSlot? slot byte p = some (n, p')) : p.OnlyFile r.fileId p' := by
  simp only [fillSlot?, found] at filled
  obtain ⟨q, poked, same⟩ := Option.map_eq_some_iff.mp filled
  cases same
  rw [Region.poke?] at poked
  split at poked
  · split at poked
    · rename_i m mapped
      cases poked
      rw [← shows m mapped]
      exact p.onlyFile_setFile m.file _
    · cases poked
      exact .refl ..
  · cases poked

/-- The words of a slot are those of a mapping of the index. -/
theorem file_of_wordsOf? {slot : Slot} {words : WordView} (found : x.region? = some r)
    (shows : ∀ m ∈ r.mapped, m.file = r.fileId) (viewed : x.wordsOf? slot = some words) :
    words.mapping.file = r.fileId := by
  rw [wordsOf?, found, Option.bind_some, Region.words?] at viewed
  split at viewed
  · split at viewed
    · rename_i m mapped
      split at viewed
      · cases viewed
        exact shows m mapped
      · cases viewed
    · cases viewed
  · cases viewed

theorem wordStore_onlyFile (words : WordView) (i word : Nat) (p : Platform) :
    p.OnlyFile words.mapping.file (words.store i word p) := p.onlyFile_setFile words.mapping.file _

theorem barrier_onlyFile (found : x.region? = some r) (shows : ∀ m ∈ r.mapped, m.file = r.fileId)
    (p : Platform) : p.OnlyFile r.fileId (x.barrier p).2 := by
  have only := (Region.flush_settled (p := p) shows ⟨r.medium, ⟨0, r.capacity⟩⟩).onlyFile
  simp only [barrier, found]
  split <;> rename_i outcome <;> rw [Region.flushWhole] at outcome <;> rw [outcome] at only <;>
    exact only

/-! ## Unmapping -/

theorem deleteFile_lengthens (x : SharedIndex) (p : Platform) :
    p.files.Lengthens (x.deleteFile p).2.files := by
  rw [deleteFile]
  split
  · rename_i files unlinked
    exact FileSystem.unlink_lengthens unlinked
  · split
    · exact .refl _
    · exact .refl _

theorem unmap_of_none (absent : x.region? = none) (delete : Bool) :
    x.unmap delete p = (.ok (), x, p) := by
  rw [region?] at absent
  rw [unmap]
  split
  · rename_i r size state
    rw [state] at absent
    cases absent
  · rfl

/-- An index is unmapped even if that fails. -/
theorem unmap_region (found : x.region? = some r) (delete : Bool) :
    (x.unmap delete p).2.1 = { x with state := .unmapped } := by
  rw [region?] at found
  rw [unmap]
  split
  · cases delete with
    | false => rfl
    | true =>
      dsimp only
      rw [if_pos rfl]
      split <;> rfl
  · rename_i unallocated
    split at found
    · rename_i region size state
      exact absurd state (unallocated region size)
    · cases found

theorem region?_unmap (x : SharedIndex) (delete : Bool) (p : Platform) :
    (x.unmap delete p).2.1.region? = none := by
  cases found : x.region? with
  | none => rw [unmap_of_none found, found]
  | some r => rw [unmap_region found]; rfl

/-- The file is as long as before, even if it has no name any more. -/
theorem unmap_lengthens (found : x.region? = some r) (sound : r.Sound p)
    (untrimmed : r.setup.trimOnClose = false) (delete : Bool) :
    p.files.Lengthens (x.unmap delete p).2.2.files := by
  have kept : (r.close p).2.2.files = p.files := (Region.close_ended sound.shows).untrimmed untrimmed
  cases state : x.state with
  | unallocated | unmapped =>
    rw [region?, state] at found
    cases found
  | allocated region size =>
    rw [region?, state] at found
    cases found
    have removed := deleteFile_lengthens { x with state := .unmapped } (r.close p).2.2
    rw [kept] at removed
    simp only [unmap, state]
    cases delete with
    | false => exact kept ▸ .refl _
    | true =>
      rw [if_pos rfl]
      split <;> rename_i outcome <;> rw [outcome] at removed <;> exact removed

theorem deleteFile_spares (x : SharedIndex) (p : Platform) (id : FileId) :
    p.Spares id (x.deleteFile p).2 := by
  rw [deleteFile]
  split
  · rename_i files unlinked
    exact ⟨FileSystem.file_unlink unlinked id, .refl _⟩
  · split
    · exact .refl ..
    · exact .refl ..

/-- Unmapping an index, and deleting its file, leaves all other files. -/
theorem unmap_spares (found : x.region? = some r) (shows : ∀ m ∈ r.mapped, m.file = r.fileId)
    (delete : Bool) {id : FileId} (different : id ≠ r.fileId) :
    p.Spares id (x.unmap delete p).2.2 := by
  have closed : p.Spares id (r.close p).2.2 := (Region.close_ended shows).onlyFile.spares different
  cases state : x.state with
  | unallocated | unmapped =>
    rw [region?, state] at found
    cases found
  | allocated region size =>
    rw [region?, state] at found
    cases found
    have removed := deleteFile_spares { x with state := .unmapped } (r.close p).2.2 id
    simp only [unmap, state]
    cases delete with
    | false => exact closed
    | true =>
      rw [if_pos rfl]
      split <;> rename_i outcome <;> rw [outcome] at removed <;> exact closed.trans removed

/-- Names stay as long as no file is deleted. -/
theorem unmap_names (found : x.region? = some r) (shows : ∀ m ∈ r.mapped, m.file = r.fileId) :
    p.files.SameNames (x.unmap false p).2.2.files := by
  have closed : p.files.SameNames (r.close p).2.2.files := (Region.close_ended shows).onlyFile.names
  cases state : x.state with
  | unallocated | unmapped =>
    rw [region?, state] at found
    cases found
  | allocated region size =>
    rw [region?, state] at found
    cases found
    simp only [unmap, state]
    exact closed

end MappedStorage.SharedIndex
