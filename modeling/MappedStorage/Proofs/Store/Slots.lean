import MappedStorage.Proofs.Mapping.Granules
import MappedStorage.Proofs.Store.IndexRun

/-!
The slots of a shared index. The region of an index comes in whole slots, and every slot handed out lies at
its index, within what the region counts as used (`SharedIndex.Slotted`). So it resolves to its words and
bytes as long as the index is mapped, and asking for it again changes nothing (`Indexes.run_geometry`).
-/

namespace MappedStorage

/-- The word of some bytes at an index, lowest byte first. -/
def wordIn (bytes : Bytes) (i : Nat) : Nat :=
  let byte (k : Nat) := (bytes.getD (i * Region.wordSize + k) 0).toNat
  byte 0 + byte 1 * 0x100 + byte 2 * 0x10000 + byte 3 * 0x1000000

namespace Region

variable {r : Region} {p : Platform} {m : Mapping} {offset len : Nat}

/-- The words of a range that is mapped and aligned. -/
theorem words?_of_mapped (mapped : r.mapped = some m) (address : m.address % wordSize = 0)
    (aligned : offset % wordSize = 0) (whole : len % wordSize = 0) (within : offset + len ≤ r.capacity) :
    r.words? ⟨offset, offset + len⟩ = some ⟨m, offset, len / wordSize⟩ := by
  have size : offset + len - offset = len := Nat.add_sub_cancel_left offset len
  have place : (m.address + offset) % wordSize = 0 := by
    unfold wordSize at *
    omega
  unfold words?
  rw [if_pos ⟨Nat.le_add_right .., within, by rw [size]; exact whole⟩, mapped]
  dsimp only
  rw [if_pos place, size]

theorem bytes?_of_mapped (mapped : r.mapped = some m) (within : offset + len ≤ r.capacity) :
    r.bytes? ⟨offset, offset + len⟩ p = some (p.loadBytes m offset len) := by
  unfold bytes?
  rw [if_pos ⟨Nat.le_add_right .., within⟩, mapped, Nat.add_sub_cancel_left]

/-- The words of a range are those that its bytes make up. -/
theorem load_eq_wordIn {i : Nat} (inside : i < len / wordSize) :
    (⟨m, offset, len / wordSize⟩ : WordView).load i p = wordIn (p.loadBytes m offset len) i := by
  have here (k : Nat) (small : k < wordSize) :
      (p.loadBytes m offset len).getD (i * wordSize + k) 0 = p.load m (offset + i * wordSize + k) := by
    have within : i * wordSize + k < len := by
      unfold wordSize at *
      omega
    rw [Platform.loadBytes, File.getD_slice, if_pos within, Nat.add_assoc]
    rfl
  unfold wordIn
  dsimp only
  rw [here 0 (by decide), here 1 (by decide), here 2 (by decide), here 3 (by decide)]
  rfl

end Region

namespace SharedIndex

/-- A region in whole slots, of which some are handed out. -/
structure Slotted (r : Region) (size : Nat) (slots : List Slot) : Prop extends r.Granular where
  granule : r.setup.growth.granule = size
  positive : 0 < size
  words : size % Region.wordSize = 0
  placed : ∀ slot ∈ slots, slot = slotAt slot.index size ∧ slot.offset + slot.len ≤ r.used

/-- An index in slots. Without a region none are handed out. -/
def Sized (x : SharedIndex) (slots : List Slot) : Prop :=
  match x.state with
  | .allocated r size => Slotted r size slots
  | _ => slots = []

variable {x x' : SharedIndex} {r r' : Region} {p p' : Platform} {slots : List Slot} {slot : Slot}
  {size index slotSize : Nat} {extend : Bool} {result : Except ProviderError (Option Slot)}

theorem sized_of_state (state : x.state = .allocated r size) :
    x.Sized slots ↔ Slotted r size slots := by rw [Sized, state]

theorem sized_of_none (absent : x.region? = none) : x.Sized slots ↔ slots = [] := by
  cases state : x.state with
  | allocated r size =>
    rw [region?_of_state state] at absent
    cases absent
  | unallocated | unmapped => rw [Sized, state]

/-- A region that reaches further has all slots that it had. -/
theorem Slotted.reserved {least : Nat} {outcome : Except RegionError Unit}
    (slotted : Slotted r size slots) (reserved : r.Reserved least r' outcome) : Slotted r' size slots := by
  refine ⟨reserved.toGranular, by rw [reserved.setup_eq]; exact slotted.granule, slotted.positive,
    slotted.words, ?_⟩
  rw [reserved.used_eq]
  exact slotted.placed

/-- A slot that the region covers can be handed out. -/
theorem Slotted.count (slotted : Slotted r size slots)
    (enough : (slotAt index size).offset + (slotAt index size).len ≤ r.capacity) :
    Slotted (r.countUsed ((slotAt index size).offset + (slotAt index size).len)) size
      (slotAt index size :: slots) := by
  refine ⟨Region.countUsed_granular slotted.toGranular _, slotted.granule, slotted.positive,
    slotted.words, fun slot member => ?_⟩
  rcases List.mem_cons.mp member with rfl | member
  · exact ⟨rfl, Nat.le_trans (Nat.le_min.mpr ⟨Nat.le_refl _, enough⟩) (Nat.le_max_right ..)⟩
  · obtain ⟨placed, within⟩ := slotted.placed slot member
    exact ⟨placed, Nat.le_trans within (Nat.le_max_left ..)⟩

/-- What mapping a slot leaves: the region in slots, with this one handed out if it is there. -/
theorem MappedIn.slotted (mapped : x.MappedIn r (slotAt index size) p result x' p') (proper : r.Proper)
    (slotted : Slotted r size slots) : ∃ r', x'.state = .allocated r' size ∧ r.capacity ≤ r'.capacity ∧
      Slotted r' size ((IndexAnswer.slot result).record slots) := by
  cases mapped with
  | covered enough => exact ⟨_, rfl, Nat.le_refl _, slotted.count enough⟩
  | absent _ => exact ⟨r, rfl, Nat.le_refl _, slotted⟩
  | failed _ reserving =>
    have reserved := Region.reserve_granular proper slotted.toGranular reserving
    exact ⟨_, rfl, reserved.larger, slotted.reserved reserved⟩
  | grown _ reserving =>
    have reserved := Region.reserve_granular proper slotted.toGranular reserving
    exact ⟨_, rfl, reserved.larger, (slotted.reserved reserved).count (reserved.covers rfl)⟩

/-- A request keeps the size of the slots, and the region reaches as far as before. -/
theorem requestSlot_sized (proper : ∀ r ∈ x.regions, r.Proper) (sized : x.Sized slots)
    (requested : x.requestSlot index slotSize extend p = (result, x', p')) :
    x'.Sized ((IndexAnswer.slot result).record slots) ∧ ∀ r size, x.state = .allocated r size →
      ∃ r', x'.state = .allocated r' size ∧ r.capacity ≤ r'.capacity := by
  cases requestSlot_answered requested with
  | refused none =>
    refine ⟨?_, fun r size state => ⟨r, state, Nat.le_refl _⟩⟩
    unfold IndexAnswer.record
    split
    · rename_i slot answer
      cases answer
      exact absurd rfl (none slot)
    · exact sized
  | unopened absent _ _ =>
    exact ⟨sized, fun r size state => ⟨r, state, Nat.le_refl _⟩⟩
  | mapped state _ mapped =>
    have here : x.regions = [_] := regions_of_region? (region?_of_state state)
    rw [sized_of_state state] at sized
    obtain ⟨r', state', larger, slotted⟩ := mapped.slotted (proper _ (by simp [here])) sized
    refine ⟨(sized_of_state state').mpr slotted, fun r size same => ?_⟩
    rw [state] at same
    cases same
    exact ⟨r', state', larger⟩
  | opened absent _ size _ granule opening mapped =>
    rw [sized_of_none absent] at sized
    obtain ⟨granular, setup⟩ := Region.open_granular opening
    have slotted : Slotted _ slotSize slots :=
      ⟨granular, by rw [setup]; exact granule, size.1, size.2, by simp [sized]⟩
    have brings := Region.open_brings opening
    obtain ⟨r', state', -, slotted'⟩ := mapped.slotted (brings.proper _ rfl).1 slotted
    refine ⟨(sized_of_state state').mpr slotted', fun r size same => ?_⟩
    rw [region?_of_state same] at absent
    cases absent

/-- Whatever is asked besides unmapping keeps the size of the slots. -/
theorem serve_sized (proper : ∀ r ∈ x.regions, r.Proper) (sized : x.Sized slots)
    {request : IndexRequest} (keeps : ∀ delete, request ≠ .unmap delete) :
    (x.serve p request).2.1.Sized ((x.serve p request).1.record slots) ∧
      ∀ r size, x.state = .allocated r size →
        ∃ r', (x.serve p request).2.1.state = .allocated r' size ∧ r.capacity ≤ r'.capacity := by
  have same : x.Sized slots ∧ ∀ r size, x.state = .allocated r size →
      ∃ r', x.state = .allocated r' size ∧ r.capacity ≤ r'.capacity :=
    ⟨sized, fun r size state => ⟨r, state, Nat.le_refl _⟩⟩
  cases request with
  | slot index slotSize extend => exact requestSlot_sized proper sized rfl
  | storeWord slot i word =>
    unfold serve
    dsimp only
    split <;> exact same
  | fill slot byte =>
    unfold serve
    dsimp only
    split <;> exact same
  | barrier => exact same
  | unmap delete => exact absurd rfl (keeps delete)

/-- A slot that is handed out is all there. -/
theorem Slotted.within (slotted : Slotted r size slots) (member : slot ∈ slots) :
    slot.offset = slot.index * size ∧ slot.len = size ∧ slot.offset + slot.len ≤ r.capacity := by
  obtain ⟨placed, within⟩ := slotted.placed slot member
  refine ⟨?_, ?_, Nat.le_trans within slotted.used_le⟩
  · rw [placed]
    rfl
  · rw [placed]
    rfl

/-- A slot that is handed out resolves to its words and its bytes, which agree. -/
theorem Slotted.resolves (slotted : Slotted r size slots) (state : x.state = .allocated r size)
    (pages : ∀ m ∈ r.mapped, m.address % AddressSpace.page = 0) (member : slot ∈ slots) (p : Platform) :
    ∃ words bytes, x.wordsOf? slot = some words ∧ words.count = size / Region.wordSize ∧
      x.readSlot? slot p = some bytes ∧ bytes.size = size ∧
      ∀ i < words.count, words.load i p = wordIn bytes i := by
  obtain ⟨offset, len, within⟩ := slotted.within member
  have positive := slotted.positive
  obtain ⟨m, mapped⟩ := Region.exists_mapping (r := r) (by omega)
  have address : m.address % Region.wordSize = 0 := by
    have page := pages m mapped
    unfold AddressSpace.page at page
    unfold Region.wordSize
    omega
  have aligned : slot.offset % Region.wordSize = 0 := by
    rw [offset, Nat.mul_mod, slotted.words, Nat.mul_zero, Nat.zero_mod]
  have words := Region.words?_of_mapped mapped address aligned (len ▸ slotted.words) within
  have bytes := Region.bytes?_of_mapped (p := p) mapped within
  refine ⟨⟨m, slot.offset, slot.len / Region.wordSize⟩, p.loadBytes m slot.offset slot.len, ?_,
    by rw [len], ?_, (Patchwork.size_slice ..).trans len, fun i inside => Region.load_eq_wordIn inside⟩
  · rw [wordsOf?, region?_of_state state]
    exact words
  · rw [readSlot?, region?_of_state state]
    exact bytes

/-- To ask again for a slot that is handed out changes nothing. -/
theorem Slotted.repeated (slotted : Slotted r size slots) (state : x.state = .allocated r size)
    (member : slot ∈ slots) (p : Platform) :
    x.requestSlot slot.index size true p = (.ok (some slot), x, p) := by
  obtain ⟨placed, used⟩ := slotted.placed slot member
  obtain ⟨offset, len, within⟩ := slotted.within member
  have positive := slotted.positive
  have bound := Nat.le_trans within slotted.addressable
  have limit := Word.addressable_lt_max
  have stop : (slot.index + 1) * size = slot.offset + slot.len := by
    rw [offset, len, Nat.succ_mul]
  have few : slot.index + 1 ≤ (slot.index + 1) * size := Nat.le_mul_of_pos_right _ positive
  have counted : required? slot.index size = some (slot.offset + slot.len) := by
    unfold required? Word.add? Word.mul?
    rw [if_pos (by omega), Option.bind_some, stop, if_pos (by omega)]
  have unchanged : r.countUsed (slot.offset + slot.len) = r := by
    unfold Region.countUsed
    rw [Nat.min_eq_left within, Nat.max_eq_left used]
  have here : (⟨slot.index, slot.offset + slot.len - size, size⟩ : Slot) = slot := by
    rw [← len, Nat.add_sub_cancel]
  unfold requestSlot
  rw [if_neg (by have words := slotted.words; omega)]
  simp only [state, ne_eq, not_true_eq_false, if_false, counted, mapIn, if_pos within, here, unchanged]
  rw [← state]

/-- Slots at different indexes have no byte in common. -/
theorem Slotted.apart (slotted : Slotted r size slots) {a b : Slot} (first : a ∈ slots) (second : b ∈ slots)
    (different : a.index ≠ b.index) : a.offset + a.len ≤ b.offset ∨ b.offset + b.len ≤ a.offset := by
  obtain ⟨a_offset, a_len, -⟩ := slotted.within first
  obtain ⟨b_offset, b_len, -⟩ := slotted.within second
  rw [a_offset, a_len, b_offset, b_len, ← Nat.succ_mul, ← Nat.succ_mul]
  rcases Nat.lt_or_gt_of_ne different with less | greater
  · exact .inl (Nat.mul_le_mul_right size less)
  · exact .inr (Nat.mul_le_mul_right size greater)

end SharedIndex

namespace Indexes

/-- Every index is in slots. -/
def Sized (s : Indexes) (slots : String → List Slot) : Prop :=
  ∀ name x, s.find? name = some x → x.Sized (slots name)

/-- What is known of the slots that an index has handed out since it was last unmapped. -/
structure Geometry (x : SharedIndex) (r : Region) (size : Nat) (slots : List Slot) (p : Platform) :
    Prop where
  whole : r.capacity % size = 0
  placed : ∀ slot ∈ slots, slot.offset = slot.index * size ∧ slot.len = size ∧
    slot.offset + slot.len ≤ r.capacity
  resolves : ∀ slot ∈ slots, ∃ words bytes, x.wordsOf? slot = some words ∧
    words.count = size / Region.wordSize ∧ x.readSlot? slot p = some bytes ∧ bytes.size = size ∧
    ∀ i < words.count, words.load i p = wordIn bytes i
  apart : ∀ a ∈ slots, ∀ b ∈ slots, a.index ≠ b.index →
    a.offset + a.len ≤ b.offset ∨ b.offset + b.len ≤ a.offset
  repeated : ∀ slot ∈ slots, x.requestSlot slot.index size true p = (.ok (some slot), x, p)

variable {s : Indexes} {slots : String → List Slot} {name : String} {x : SharedIndex} {r : Region}
  {size : Nat} {e : IndexEvent}

theorem sized_start (p : Platform) (slots : String → List Slot) : (start p).Sized slots := by
  intro name x found
  cases found

/-- The mapping of an index starts at a page. -/
theorem Held.pages (held : s.Held) (found : s.find? name = some x) (region : x.region? = some r) :
    ∀ m ∈ r.mapped, m.address % AddressSpace.page = 0 := by
  intro m mapped
  have member : r ∈ s.regions :=
    Keyed.mem_gather_iff.mpr ⟨name, x, found, by simp [SharedIndex.regions, region]⟩
  exact held.holds.toOrderly.pages (held.holds.live.mem_iff.mpr (List.mem_filterMap.mpr ⟨r, member, mapped⟩))

theorem Sized.geometry (sized : s.Sized slots) (held : s.Held) (found : s.find? name = some x)
    (state : x.state = .allocated r size) : Geometry x r size (slots name) s.state := by
  have slotted := (SharedIndex.sized_of_state state).mp (sized name x found)
  have pages := held.pages found (SharedIndex.region?_of_state state)
  exact {
    whole := slotted.granule ▸ slotted.whole
    placed := fun _ member => slotted.within member
    resolves := fun _ member => slotted.resolves state pages member s.state
    apart := fun _ first _ second => slotted.apart first second
    repeated := fun _ member => slotted.repeated state member s.state }

theorem note_elsewhere (stays : e.ends name = false) (different : name ≠ e.name) :
    s.note slots e name = slots name := by
  unfold note
  rw [stays, if_neg (by simp), if_neg (Ne.symm different)]

/-- What an event does to the index of a name that it does not end: nothing, or what is asked of it. -/
theorem step_stays (slots : String → List Slot) (stays : e.ends name = false)
    (found : s.find? name = some x) :
    (s.step e).2.find? name = some x ∧ s.note slots e name = slots name ∨
    ∃ request, e = .ask name request ∧ (∀ delete, request ≠ .unmap delete) ∧
      (s.step e).2.find? name = some (x.serve s.state request).2.1 ∧
      s.note slots e name = (x.serve s.state request).1.record (slots name) := by
  cases e with
  | new other path setup baseSize =>
    have different : name ≠ other := fun same => by simp [IndexEvent.ends, same] at stays
    left
    refine ⟨?_, note_elsewhere stays different⟩
    show Session.find? (Session.put _ other _) name = some x
    rw [Session.find?_put, if_neg different, Session.find?_drop, if_neg different, found]
  | drop other =>
    have different : name ≠ other := fun same => by simp [IndexEvent.ends, same] at stays
    left
    refine ⟨?_, note_elsewhere stays different⟩
    show Session.find? (Session.drop _ other _) name = some x
    rw [Session.find?_drop, if_neg different, found]
  | ask other request =>
    by_cases here : other = name
    · subst here
      right
      refine ⟨request, rfl, fun delete same => by simp [IndexEvent.ends, same] at stays, ?_, ?_⟩
      · rw [step_ask found]
        exact (Session.find?_update found _).trans (if_pos rfl)
      · unfold note
        rw [stays, if_neg (by simp), if_pos (by rfl), step_ask found]
    · left
      refine ⟨?_, note_elsewhere stays (Ne.symm here)⟩
      cases there : s.find? other with
      | none => rw [step_ask_of_none there, found]
      | some y =>
        rw [step_ask there]
        exact (Session.find?_update there _).trans ((if_neg (Ne.symm here)).trans found)

/-- What is found after an event that ends an index has no region. -/
theorem step_ends (ends : e.ends name = true) (found : (s.step e).2.find? name = some x) :
    x.region? = none := by
  cases e with
  | new other path setup baseSize =>
    obtain rfl : other = name := by simpa [IndexEvent.ends] using ends
    have new := (Session.find?_put _ _ _ _).symm.trans found
    rw [if_pos rfl] at new
    cases new
    rfl
  | drop other =>
    obtain rfl : other = name := by simpa [IndexEvent.ends] using ends
    have gone := (s.find?_drop other SharedIndex.drop other).symm.trans found
    rw [if_pos rfl] at gone
    cases gone
  | ask other request =>
    cases request with
    | unmap delete =>
      obtain rfl : other = name := by simpa [IndexEvent.ends] using ends
      cases there : s.find? other with
      | none =>
        rw [step_ask_of_none there, there] at found
        cases found
      | some y =>
        rw [step_ask there] at found
        have unmapped := (Session.find?_update there _).symm.trans found
        rw [if_pos rfl] at unmapped
        cases unmapped
        exact SharedIndex.region?_unmap _ delete s.state
    | slot | storeWord | fill | barrier => cases ends

/-- An index that an event does not end was there before. -/
theorem exists_before (stays : e.ends name = false) (found : (s.step e).2.find? name = some x) :
    ∃ y, s.find? name = some y := by
  cases e with
  | new other path setup baseSize =>
    have different : name ≠ other := fun same => by simp [IndexEvent.ends, same] at stays
    have there := (Session.find?_put _ _ _ _).symm.trans found
    rw [if_neg different, Session.find?_drop, if_neg different] at there
    exact ⟨x, there⟩
  | drop other =>
    have different : name ≠ other := fun same => by simp [IndexEvent.ends, same] at stays
    have there := (s.find?_drop other SharedIndex.drop name).symm.trans found
    rw [if_neg different] at there
    exact ⟨x, there⟩
  | ask other request =>
    cases there : s.find? other with
    | none =>
      rw [step_ask_of_none there] at found
      exact ⟨x, found⟩
    | some y =>
      by_cases here : name = other
      · exact ⟨y, here ▸ there⟩
      · rw [step_ask there] at found
        have same := (Session.find?_update there _).symm.trans found
        rw [if_neg here] at same
        exact ⟨x, same⟩

theorem step_sized (held : s.Held) (sized : s.Sized slots) (e : IndexEvent) :
    (s.step e).2.Sized (s.note slots e) := by
  intro name x found
  cases ends : e.ends name with
  | true =>
    unfold note
    rw [if_pos ends]
    exact (SharedIndex.sized_of_none (step_ends ends found)).mpr rfl
  | false =>
    obtain ⟨y, there⟩ := exists_before ends found
    obtain ⟨same, noted⟩ | ⟨request, -, keeps, served, noted⟩ := step_stays slots ends there
    · rw [same] at found
      cases found
      rw [noted]
      exact sized name _ there
    · rw [served] at found
      cases found
      rw [noted]
      exact (SharedIndex.serve_sized (held.proper_at there) (sized name y there) keeps).1

/-- As long as an index is not unmapped its slots keep their size and it keeps what it has handed out. -/
theorem step_allocated (held : s.Held) (sized : s.Sized slots) (stays : e.ends name = false)
    (found : s.find? name = some x) (state : x.state = .allocated r size) :
    ∃ x' r', (s.step e).2.find? name = some x' ∧ x'.state = .allocated r' size ∧
      r.capacity ≤ r'.capacity ∧ ∀ slot ∈ slots name, slot ∈ s.note slots e name := by
  obtain ⟨same, noted⟩ | ⟨request, -, keeps, served, noted⟩ := step_stays slots stays found
  · exact ⟨x, r, same, state, Nat.le_refl _, by rw [noted]; exact fun _ member => member⟩
  · have after := SharedIndex.serve_sized (p := s.state) (held.proper_at found) (sized name x found) keeps
    obtain ⟨r', state', larger⟩ := after.2 r size state
    refine ⟨_, r', served, state', larger, fun slot member => ?_⟩
    rw [noted]
    unfold IndexAnswer.record
    split
    · exact List.mem_cons_of_mem _ member
    · exact member

/-! ## Runs -/

theorem run_sized (held : s.Held) (sized : s.Sized slots) (events : List IndexEvent) :
    (s.run events).Sized (s.handedOut slots events) := by
  induction events generalizing s slots with
  | nil => exact sized
  | cons e rest ih => exact ih (step_held held e) (step_sized held sized e)

theorem run_allocated {events : List IndexEvent} (held : s.Held) (sized : s.Sized slots)
    (stays : ∀ e ∈ events, e.ends name = false) (found : s.find? name = some x)
    (state : x.state = .allocated r size) :
    ∃ x' r', (s.run events).find? name = some x' ∧ x'.state = .allocated r' size ∧
      r.capacity ≤ r'.capacity ∧ ∀ slot ∈ slots name, slot ∈ s.handedOut slots events name := by
  induction events generalizing s slots x r with
  | nil => exact ⟨x, r, found, state, Nat.le_refl _, fun _ member => member⟩
  | cons e rest ih =>
    obtain ⟨x₁, r₁, found₁, state₁, larger₁, kept₁⟩ :=
      step_allocated held sized (stays e List.mem_cons_self) found state
    obtain ⟨x', r', found', state', larger, kept⟩ := ih (step_held held e) (step_sized held sized e)
      (fun e member => stays e (List.mem_cons_of_mem _ member)) found₁ state₁
    exact ⟨x', r', found', state', Nat.le_trans larger₁ larger, fun slot member =>
      kept slot (kept₁ slot member)⟩

/-- Whatever calls fail, the slots that an index has handed out since it was last unmapped lie in its region
as their indexes say, resolve, and are handed out again unchanged; and so it stays, with slots of one size,
however the region grows, until the index is unmapped. -/
theorem run_geometry (files : FileSystem) (plan : CallPlan) (events : List IndexEvent) (name : String)
    (x : SharedIndex) (r : Region) (size : Nat)
    (found : ((start { files, plan }).run events).find? name = some x)
    (state : x.state = .allocated r size) :
    Geometry x r size ((start { files, plan }).handedOut (fun _ => []) events name)
        ((start { files, plan }).run events).state ∧
      ∀ later : List IndexEvent, (∀ e ∈ later, e.ends name = false) →
        ∃ x' r', ((start { files, plan }).run (events ++ later)).find? name = some x' ∧
          x'.state = .allocated r' size ∧ r.capacity ≤ r'.capacity ∧
          (∀ slot ∈ (start { files, plan }).handedOut (fun _ => []) events name,
            slot ∈ (start { files, plan }).handedOut (fun _ => []) (events ++ later) name) ∧
          Geometry x' r' size ((start { files, plan }).handedOut (fun _ => []) (events ++ later) name)
            ((start { files, plan }).run (events ++ later)).state := by
  have held (events : List IndexEvent) := run_held (Held.start files plan) events
  have sized (events : List IndexEvent) :=
    run_sized (Held.start files plan) (sized_start { files, plan } fun _ => []) events
  refine ⟨(sized events).geometry (held events) found state, fun later stays => ?_⟩
  obtain ⟨x', r', found', state', larger, kept⟩ :=
    run_allocated (held events) (sized events) stays found state
  rw [← run_append] at found'
  rw [← handedOut_append] at kept
  exact ⟨x', r', found', state', larger, kept,
    (sized (events ++ later)).geometry (held (events ++ later)) found' state'⟩

/-- For instance two slots, for the second of which the region grows. -/
theorem grown_slots_geometry :
    let s : Indexes := start { files := .empty, plan := {} }
    let events : List IndexEvent := [.new "a" ⟨[0x78]⟩ {} 8, .ask "a" (.slot 0 8 true),
      .ask "a" (.slot 3 8 true)]
    ∃ x r, (s.run events).find? "a" = some x ∧ x.state = .allocated r 8 ∧ r.capacity = 32 ∧
      s.handedOut (fun _ => []) events "a" = [⟨3, 24, 8⟩, ⟨0, 0, 8⟩] ∧
      Geometry x r 8 [⟨3, 24, 8⟩, ⟨0, 0, 8⟩] (s.run events).state := by
  intro s events
  have sizes : ((s.run events).find? "a").map (fun x => (x.slotSize?, x.capacity)) =
      some (some 8, 32) := by
    dsimp +zetaDelta only
    cbv
  have slots : s.handedOut (fun _ => []) events "a" = [⟨3, 24, 8⟩, ⟨0, 0, 8⟩] := by
    dsimp +zetaDelta only
    cbv
  obtain ⟨x, found, both⟩ := Option.map_eq_some_iff.mp sizes
  obtain ⟨size, capacity⟩ := Prod.mk.inj both
  obtain ⟨r, state⟩ := SharedIndex.slotSize?_eq_some size
  have reach : r.capacity = 32 := by
    rw [SharedIndex.capacity, SharedIndex.region?_of_state state] at capacity
    exact capacity
  obtain ⟨geometry, -⟩ := run_geometry .empty {} events "a" x r 8 found state
  exact ⟨x, r, found, state, reach, slots, slots ▸ geometry⟩

end Indexes
end MappedStorage
