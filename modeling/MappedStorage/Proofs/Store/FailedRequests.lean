import MappedStorage.Proofs.Mapping.Twins
import MappedStorage.Proofs.Store.IndexContents

/-!
Requests for slots that fail. An index that is allocated is left as it was, and goes on to answer as if the
request had not been made (`SharedIndex.Unchanged`). One that is not allocated stays so, unless its region
can be opened and not be made to reach the slot: then the index is allocated with slots of the size that the
request had (`Indexes.run_failed_request`).
-/

namespace MappedStorage

/-- The index is not asked to be unmapped. -/
def IndexRequest.keeps : IndexRequest → Bool
  | .unmap _ => false
  | .slot .. | .storeWord .. | .fill .. | .barrier => true

/-- A name can be removed or not alike, and from the same files. -/
theorem FileSystem.SameNames.unlink {fs fs' : FileSystem} (same : fs.SameNames fs') (path : Path) :
    (∃ e, fs.unlink path = .error e ∧ fs'.unlink path = .error e) ∨
      ∃ a b, fs.unlink path = .ok a ∧ fs'.unlink path = .ok b := by
  unfold FileSystem.unlink
  rw [same.resolve]
  split <;> try exact .inl ⟨_, rfl, rfl⟩
  all_goals
    split
    · exact .inl ⟨_, rfl, rfl⟩
    · exact .inr ⟨_, _, rfl, rfl⟩

/-- Regions that are alike are twins wherever the same outcomes are planned for both. -/
theorem Region.Alike.withPlan {r r' : Region} {p p' : Platform} (alike : r.Alike p r' p')
    (plan : CallPlan) : r.Twin { p with plan } r' { p' with plan } := by
  obtain ⟨region, live, -, names, others, file, lengthened⟩ := alike
  exact ⟨⟨region, live, rfl, ⟨names.1, names.2, names.3⟩, others, file, lengthened⟩, rfl⟩

namespace SharedIndex

/-- Does what is asked of an index, in order. -/
def serveAll (x : SharedIndex) (p : Platform) :
    List IndexRequest → List IndexAnswer × SharedIndex × Platform
  | [] => ([], x, p)
  | request :: rest =>
    let (answer, x, p) := x.serve p request
    let (answers, x, p) := x.serveAll p rest
    (answer :: answers, x, p)

/-- An index that is allocated on two platforms, over regions that are twins. -/
inductive Twin (x : SharedIndex) (p : Platform) : SharedIndex → Platform → Prop
  | allocated {r r' : Region} {size : Nat} {p' : Platform} (state : x.state = .allocated r size)
      (twin : r.Twin p r' p') (sound : r.Sound p) :
      Twin x p { x with state := .allocated r' size } p'

/-- Nothing tells an index from another: not what it says of itself or shows through its slots, and not what
it answers from then on, up to the time it is unmapped and whatever calls will fail. -/
structure Unchanged (x : SharedIndex) (p : Platform) (x' : SharedIndex) (p' : Platform) : Prop where
  allocated : x'.region?.isSome = x.region?.isSome
  slotSize : x'.slotSize? = x.slotSize?
  capacity : x'.capacity = x.capacity
  medium : x'.medium? = x.medium?
  words : ∀ slot, x'.wordsOf? slot = x.wordsOf? slot
  bytes : ∀ slot, x'.readSlot? slot p' = x.readSlot? slot p
  later : ∀ plan requests last, (∀ request ∈ requests, request.keeps = true) →
    (x'.serveAll { p' with plan } (requests ++ [last])).1 =
      (x.serveAll { p with plan } (requests ++ [last])).1

variable {x x' : SharedIndex} {p p' : Platform} {r r' : Region} {slot : Slot}
  {index slotSize required : Nat} {extend : Bool}

theorem mapIn_twin (twin : r.Twin p r' p') (sound : r.Sound p) (state : IndexState) :
    (({ x with state } : SharedIndex).mapIn r' index slotSize required extend p').1 =
        (x.mapIn r index slotSize required extend p).1 ∧
      (x.mapIn r index slotSize required extend p).2.1.Twin
        (x.mapIn r index slotSize required extend p).2.2
        (({ x with state } : SharedIndex).mapIn r' index slotSize required extend p').2.1
        (({ x with state } : SharedIndex).mapIn r' index slotSize required extend p').2.2 := by
  unfold mapIn
  dsimp only
  rw [twin.capacity_eq]
  split
  · have counted := (Region.countUsed_advanced sound required).sound
    exact ⟨rfl, .allocated (x := { x with state := .allocated _ slotSize }) rfl (twin.countUsed _) counted⟩
  · cases extend with
    | false => exact ⟨rfl, .allocated (x := { x with state := .allocated _ slotSize }) rfl twin sound⟩
    | true =>
      obtain ⟨answer, later⟩ := twin.reserve required
      rw [if_pos rfl, if_pos rfl]
      rcases reserving : r.reserve required p with ⟨outcome, s, q⟩
      rcases reserving' : r'.reserve required p' with ⟨outcome', s', q'⟩
      rw [reserving, reserving'] at answer later
      have advanced := Region.reserve_advanced sound reserving
      cases answer
      cases outcome with
      | error e =>
        exact ⟨rfl, .allocated (x := { x with state := .allocated _ slotSize }) rfl later advanced.sound⟩
      | ok =>
        have counted := (Region.countUsed_advanced advanced.sound required).sound
        exact ⟨rfl, .allocated (x := { x with state := .allocated _ slotSize }) rfl
          (later.countUsed _) counted⟩

/-- A request for a slot is judged the same. -/
theorem Twin.requestSlot (twin : x.Twin p x' p') (index slotSize : Nat) (extend : Bool) :
    (x'.requestSlot index slotSize extend p').1 = (x.requestSlot index slotSize extend p).1 ∧
      (x.requestSlot index slotSize extend p).2.1.Twin (x.requestSlot index slotSize extend p).2.2
        (x'.requestSlot index slotSize extend p').2.1
        (x'.requestSlot index slotSize extend p').2.2 := by
  obtain ⟨state, regions, sound⟩ := twin
  have same : x.Twin p { x with state := .allocated _ _ } p' := .allocated state regions sound
  unfold SharedIndex.requestSlot
  rw [state]
  dsimp only
  split
  · exact ⟨rfl, same⟩
  · split
    · exact ⟨rfl, same⟩
    · split
      · exact ⟨rfl, same⟩
      · exact mapIn_twin regions sound _

/-! ## Twins -/

theorem Twin.region? (twin : x.Twin p x' p') : ∃ r r', x.region? = some r ∧ x'.region? = some r' ∧
    r.Twin p r' p' ∧ r.Sound p := by
  obtain ⟨state, regions, sound⟩ := twin
  exact ⟨_, _, region?_of_state state, rfl, regions, sound⟩

theorem Twin.of_region (twin : x.Twin p x' p') {q q' : Platform}
    (regions : ∀ r r', x.region? = some r → x'.region? = some r' → r.Twin q r' q' ∧ r.Sound q) :
    x.Twin q x' q' := by
  obtain ⟨state, -, -⟩ := twin
  obtain ⟨regions, sound⟩ := regions _ _ (region?_of_state state) rfl
  exact .allocated state regions sound

/-- A slot has the same words in both. -/
theorem Twin.wordsOf?_eq (twin : x.Twin p x' p') (slot : Slot) : x'.wordsOf? slot = x.wordsOf? slot := by
  obtain ⟨r, r', found, found', regions, -⟩ := twin.region?
  rw [wordsOf?, wordsOf?, found, found', regions.region]
  rfl

theorem Twin.readSlot?_eq (twin : x.Twin p x' p') (slot : Slot) :
    x'.readSlot? slot p' = x.readSlot? slot p := by
  obtain ⟨r, r', found, found', regions, sound⟩ := twin.region?
  rw [readSlot?, readSlot?, found, found']
  exact regions.bytes?_eq sound.backed slot.span

/-- What is stored through the mapping of both lies in both files. -/
theorem Twin.store (twin : x.Twin p x' p') (found : x.region? = some r) {m : Mapping}
    (mapped : r.mapped = some m) {offset : Nat} {data : Bytes} (within : offset + data.size ≤ r.capacity) :
    x.Twin (p.store m offset data) x' (p'.store m offset data) := by
  refine twin.of_region fun s s' found₁ found' => ?_
  obtain ⟨_, _, found₂, found₂', regions, sound⟩ := twin.region?
  cases found.symm.trans found₁
  cases found.symm.trans found₂
  cases found'.symm.trans found₂'
  obtain ⟨stored, backed⟩ := regions.store sound.backed mapped within
  exact ⟨stored, { sound with capacity_le := backed.capacity_le }⟩

theorem Twin.storeWord? (twin : x.Twin p x' p') (slot : Slot) (i word : Nat) :
    Option.Rel (x.Twin · x' ·) (x.storeWord? slot i word p) (x'.storeWord? slot i word p') := by
  unfold SharedIndex.storeWord?
  rw [twin.wordsOf?_eq]
  split
  · rename_i words viewed
    split
    · rename_i inside
      obtain ⟨r, m, found, mapped, within, rfl⟩ := wordsOf?_eq_some viewed
      refine .some (twin.store found mapped ?_)
      have whole : (WordView.bytesOf word).size = Region.wordSize := rfl
      rw [whole]
      unfold Region.wordSize at *
      dsimp only at inside ⊢
      omega
    · exact .none
  · exact .none

theorem Twin.fillSlot? (twin : x.Twin p x' p') (slot : Slot) (byte : UInt8) :
    Option.Rel (fun q q' => q'.1 = q.1 ∧ x.Twin q.2 x' q'.2) (x.fillSlot? slot byte p)
      (x'.fillSlot? slot byte p') := by
  obtain ⟨r, r', found, found', regions, -⟩ := twin.region?
  have mapped_eq : r'.mapped = r.mapped := by rw [regions.region]
  unfold SharedIndex.fillSlot? Region.poke?
  rw [found, found']
  dsimp only
  rw [regions.capacity_eq, mapped_eq]
  split
  · rename_i within
    split
    · rename_i m mapped
      exact .some ⟨rfl, twin.store found mapped within⟩
    · exact .some ⟨rfl, twin⟩
  · exact .none

theorem Twin.barrier (twin : x.Twin p x' p') :
    (x'.barrier p').1 = (x.barrier p).1 ∧ x.Twin (x.barrier p).2 x' (x'.barrier p').2 := by
  obtain ⟨r, r', found, found', regions, sound⟩ := twin.region?
  obtain ⟨answer, later⟩ := regions.flushWhole sound.backed
  have sound' : r.Sound (r.flushWhole p).2 := (Region.flush_settled sound.shows _).sound sound
  have later' : x.Twin (r.flushWhole p).2 x' (r'.flushWhole p').2 := by
    refine twin.of_region fun s s' there there' => ?_
    cases found.symm.trans there
    cases found'.symm.trans there'
    exact ⟨later, sound'⟩
  unfold SharedIndex.barrier
  rw [found, found']
  dsimp only
  rcases flushed : r.flushWhole p with ⟨outcome, q⟩
  rcases flushed' : r'.flushWhole p' with ⟨outcome', q'⟩
  rw [flushed, flushed'] at answer later'
  cases answer
  cases outcome <;> exact ⟨rfl, later'⟩

theorem deleteFile_congr (x : SharedIndex) (names : p.files.SameNames p'.files) :
    (x.deleteFile p').1 = (x.deleteFile p).1 := by
  unfold deleteFile
  obtain ⟨e, failed, failed'⟩ | ⟨fs, fs', removed, removed'⟩ := names.unlink x.path
  · rw [failed, failed']
    dsimp only
    split <;> rfl
  · rw [removed, removed']

/-- Unmapping is answered the same. -/
theorem Twin.unmap (twin : x.Twin p x' p') (untrimmed : ∀ r ∈ x.region?, r.setup.trimOnClose = false)
    (delete : Bool) : (x'.unmap delete p').1 = (x.unmap delete p).1 := by
  obtain ⟨state, regions, sound⟩ := twin
  rename_i r r' size
  have closed := (Region.close_alike regions.toAlike sound.backed).1
  have setup : r'.setup = r.setup := by rw [regions.region]
  have keeps : r.setup.trimOnClose = false := untrimmed r (region?_of_state state)
  have left : (r.close p).2.2.files = p.files := (Region.close_ended sound.shows).untrimmed keeps
  have left' : (r'.close p').2.2.files = p'.files := by
    refine (Region.close_ended ?_).untrimmed (setup ▸ keeps)
    rw [regions.region]
    exact sound.shows
  have names : (r.close p).2.2.files.SameNames (r'.close p').2.2.files := by
    rw [left, left']
    exact regions.platform.names
  have deleted := deleteFile_congr { x with state := .unmapped } names
  unfold SharedIndex.unmap
  rw [state]
  dsimp only
  rw [closed]
  cases delete with
  | false => rfl
  | true =>
    rw [if_pos rfl, if_pos rfl]
    rcases removing : SharedIndex.deleteFile { x with state := .unmapped } (r.close p).2.2 with ⟨outcome, q⟩
    rcases removing' : SharedIndex.deleteFile { x with state := .unmapped } (r'.close p').2.2 with
      ⟨outcome', q'⟩
    rw [removing, removing'] at deleted
    cases deleted
    cases outcome <;> rfl

/-- What is asked of an index is answered the same, and unless it is unmapped the indexes stay twins. -/
theorem Twin.serve (twin : x.Twin p x' p') (untrimmed : ∀ r ∈ x.region?, r.setup.trimOnClose = false)
    (request : IndexRequest) : (x'.serve p' request).1 = (x.serve p request).1 ∧
      (request.keeps = true → (x.serve p request).2.1.Twin (x.serve p request).2.2
        (x'.serve p' request).2.1 (x'.serve p' request).2.2) := by
  cases request with
  | slot index slotSize extend =>
    obtain ⟨answer, later⟩ := twin.requestSlot index slotSize extend
    exact ⟨congrArg IndexAnswer.slot answer, fun _ => later⟩
  | storeWord slot i word =>
    have stored := twin.storeWord? slot i word
    unfold SharedIndex.serve
    dsimp only
    generalize x.storeWord? slot i word p = here, x'.storeWord? slot i word p' = there at stored
    cases stored with
    | none => exact ⟨rfl, fun _ => twin⟩
    | some later => exact ⟨rfl, fun _ => later⟩
  | fill slot byte =>
    have filled := twin.fillSlot? slot byte
    unfold SharedIndex.serve
    dsimp only
    generalize x.fillSlot? slot byte p = here, x'.fillSlot? slot byte p' = there at filled
    cases filled with
    | none => exact ⟨rfl, fun _ => twin⟩
    | some later => exact ⟨rfl, fun _ => later.2⟩
  | barrier =>
    obtain ⟨answer, later⟩ := twin.barrier
    exact ⟨congrArg IndexAnswer.done answer, fun _ => later⟩
  | unmap delete => exact ⟨congrArg IndexAnswer.done (twin.unmap untrimmed delete), nofun⟩

/-! ## Indexes that are sound -/

/-- The region of an index is sound, over a file that has been made and is never trimmed. -/
structure Based (x : SharedIndex) (p : Platform) : Prop where
  untrimmed : x.setup.trimOnClose = false
  sound : ∀ r ∈ x.region?, r.Sound p
  made : ∀ r ∈ x.region?, r.fileId < p.files.nextFile
  kept : ∀ r ∈ x.region?, r.setup.trimOnClose = false

theorem based_of_none (untrimmed : x.setup.trimOnClose = false) (absent : x.region? = none)
    (p : Platform) : x.Based p :=
  ⟨untrimmed, by simp [absent], by simp [absent], by simp [absent]⟩

theorem Based.of_lengthens (based : x.Based p) (longer : p.files.Lengthens p'.files) : x.Based p' :=
  ⟨based.untrimmed, fun r found => (based.sound r found).of_lengthens (based.made r found) longer,
    fun r found => Nat.lt_of_lt_of_le (based.made r found) longer.next, based.kept⟩

theorem Based.of_advanced (untrimmed : x.setup.trimOnClose = false) (same : x.SameIndex x')
    (later : x'.region? = some r') (advanced : r.Advanced p r' p') (made : r.fileId < p.files.nextFile)
    (kept : r.setup.trimOnClose = false) : x'.Based p' := by
  have at_region (other : Region) (found : other ∈ x'.region?) : other = r' :=
    Option.some.inj (found.symm.trans later)
  refine ⟨same.setup ▸ untrimmed, fun other found => ?_, fun other found => ?_, fun other found => ?_⟩ <;>
    cases at_region other found
  · exact advanced.sound
  · rw [advanced.same.fileId_eq]
    exact Nat.lt_of_lt_of_le made advanced.longer.next
  · rw [advanced.same.setup]
    exact kept

/-- A request for a slot shortens no file, and leaves a sound region. -/
theorem Based.requestSlot (tidy : p.files.Tidy) (based : x.Based p) (requested : x.Requested p x' p') :
    p.files.Lengthens p'.files ∧ x'.Based p' := by
  cases requested with
  | idle => exact ⟨.refl _, based⟩
  | failed absent opening =>
    exact ⟨(Region.open_began tidy opening).1, based_of_none based.untrimmed absent p'⟩
  | mapped found same later advanced =>
    have advanced := advanced (based.sound _ found)
    exact ⟨advanced.longer,
      .of_advanced based.untrimmed same later advanced (based.made _ found) (based.kept _ found)⟩
  | opened absent trims opening same later advanced =>
    obtain ⟨longer, began⟩ := Region.open_began tidy opening
    have began := began _ rfl
    have advanced := advanced began.sound
    refine ⟨longer.trans advanced.longer, .of_advanced based.untrimmed same later advanced began.made ?_⟩
    rw [began.setup_eq, trims, based.untrimmed]

theorem Based.unmap (based : x.Based p) (delete : Bool) :
    p.files.Lengthens (x.unmap delete p).2.2.files ∧
      (x.unmap delete p).2.1.Based (x.unmap delete p).2.2 := by
  cases found : x.region? with
  | none =>
    rw [unmap_of_none found]
    exact ⟨.refl _, based⟩
  | some r =>
    refine ⟨unmap_lengthens found (based.sound r found) (based.kept r found) delete, ?_⟩
    refine based_of_none ?_ (region?_unmap x delete p) _
    rw [unmap_region found]
    exact based.untrimmed

theorem storeWord?_lengthens {i word : Nat} (stored : x.storeWord? slot i word p = some p') :
    p.files.Lengthens p'.files := by
  unfold SharedIndex.storeWord? at stored
  split at stored
  · split at stored
    · cases stored
      exact wordStore_lengthens ..
    · cases stored
  · cases stored

/-- Whatever is asked of an index, no file gets shorter, and its region stays sound. -/
theorem Based.serve (tidy : p.files.Tidy) (based : x.Based p) (request : IndexRequest) :
    p.files.Lengthens (x.serve p request).2.2.files ∧
      (x.serve p request).2.1.Based (x.serve p request).2.2 := by
  cases request with
  | slot index slotSize extend => exact based.requestSlot tidy (requestSlot_correct rfl)
  | storeWord slot i word =>
    unfold SharedIndex.serve
    dsimp only
    split
    · rename_i stored
      have longer := storeWord?_lengthens stored
      exact ⟨longer, based.of_lengthens longer⟩
    · exact ⟨.refl _, based⟩
  | fill slot byte =>
    unfold SharedIndex.serve
    dsimp only
    split
    · rename_i filled
      have longer := fillSlot_lengthens filled
      exact ⟨longer, based.of_lengthens longer⟩
    · exact ⟨.refl _, based⟩
  | barrier =>
    have longer := x.barrier_lengthens p
    exact ⟨longer, based.of_lengthens longer⟩
  | unmap delete => exact based.unmap delete

/-- Requests in order, all but the last of which leave the index mapped, are answered the same. -/
theorem serveAll_twin (requests : List IndexRequest) (last : IndexRequest) (tidy : p.files.Tidy)
    (based : x.Based p) (twin : x.Twin p x' p') (keeps : ∀ request ∈ requests, request.keeps = true) :
    (x'.serveAll p' (requests ++ [last])).1 = (x.serveAll p (requests ++ [last])).1 := by
  induction requests generalizing x p x' p' with
  | nil => exact congrArg (· :: []) (twin.serve based.kept last).1
  | cons request rest ih =>
    obtain ⟨answer, later⟩ := twin.serve based.kept request
    obtain ⟨longer, based'⟩ := based.serve tidy request
    exact congrArg₂ List.cons answer (ih (longer.tidy tidy) based' (later (keeps request (.head _)))
      fun next member => keeps next (.tail _ member))

/-! ## A request that fails -/

theorem Unchanged.refl (x : SharedIndex) (p : Platform) : x.Unchanged p x p :=
  ⟨rfl, rfl, rfl, rfl, fun _ => rfl, fun _ => rfl, fun _ _ _ _ => rfl⟩

/-- An index that goes on with a region that is alike. -/
theorem Based.unchanged (tidy : p.files.Tidy) (based : x.Based p) {size : Nat}
    (state : x.state = .allocated r size) (alike : r.Alike p r' p') :
    x.Unchanged p { x with state := .allocated r' size } p' := by
  have found := region?_of_state state
  have sound := based.sound r found
  have twins (plan : CallPlan) :
      x.Twin { p with plan } { x with state := .allocated r' size } { p' with plan } :=
    .allocated state (alike.withPlan plan) { sound with capacity_le := sound.capacity_le }
  have based' (plan : CallPlan) : x.Based { p with plan } := based.of_lengthens (.refl _)
  constructor
  case allocated => rw [found]; rfl
  case slotSize => rw [slotSize?, slotSize?, state]
  case capacity =>
    rw [SharedIndex.capacity, SharedIndex.capacity, found]
    exact alike.capacity_eq
  case medium =>
    have medium : r'.medium = r.medium := by rw [alike.region]
    rw [medium?, medium?, found]
    exact congrArg some medium
  case words => exact (twins {}).wordsOf?_eq
  case bytes => exact (twins {}).readSlot?_eq
  case later =>
    intro plan requests last keeps
    exact serveAll_twin requests last tidy (based' plan) (twins plan) keeps

end SharedIndex

namespace Indexes

variable {s : Indexes} {name : String} {x : SharedIndex}

/-- All indexes are sound. -/
structure Based (s : Indexes) : Prop where
  tidy : s.state.files.Tidy
  index : ∀ name x, s.find? name = some x → x.Based s.state

theorem Based.drop (based : s.Based) (name : String) : Based (s.drop name SharedIndex.drop) := by
  have there := s.find?_drop name SharedIndex.drop
  cases found : s.find? name with
  | none =>
    rw [Session.drop, found]
    exact based
  | some x =>
    have longer := ((based.index name x found).unmap false).1
    have state : (s.drop name SharedIndex.drop).state = (x.unmap false s.state).2.2 := by
      rw [Session.drop, found]
      rfl
    rw [← state] at longer
    refine ⟨longer.tidy based.tidy, fun other y found' => ?_⟩
    rw [there] at found'
    split at found'
    · cases found'
    · exact (based.index other y found').of_lengthens longer

theorem step_based (based : s.Based) (e : IndexEvent) : (s.step e).2.Based := by
  cases e with
  | new name path setup baseSize =>
    have dropped := based.drop name
    refine ⟨dropped.tidy, fun other x found => ?_⟩
    have there := (Session.find?_put _ name _ other).symm.trans found
    split at there
    · cases there
      exact SharedIndex.based_of_none rfl rfl _
    · exact dropped.index other x there
  | drop name => exact based.drop name
  | ask name request =>
    cases found : s.find? name with
    | none =>
      rw [step_ask_of_none found]
      exact based
    | some x =>
      obtain ⟨longer, served⟩ := (based.index name x found).serve based.tidy request
      rw [step_ask found]
      refine ⟨longer.tidy based.tidy, fun other y found' => ?_⟩
      have there := (Session.find?_update found _).symm.trans found'
      split at there
      · cases there
        exact served
      · exact (based.index other y there).of_lengthens longer

theorem run_based (based : s.Based) (events : List IndexEvent) : (s.run events).Based := by
  induction events generalizing s with
  | nil => exact based
  | cons e rest ih => exact ih (step_based based e)

theorem start_based {p : Platform} (tidy : p.files.Tidy) : (start p).Based :=
  ⟨tidy, fun _ _ found => by cases found⟩

/-- A request for a slot that fails leaves an index that is allocated as it was, and so it does one whose file
is not opened for it. Otherwise the index stays unallocated if its region cannot be opened; where only the
slot cannot be reached in it, the index is allocated from then on, with the slot size of the request. -/
theorem run_failed_request (files : FileSystem) (plan : CallPlan) (tidy : files.Tidy)
    (events : List IndexEvent) {name : String} {x x' : SharedIndex} {p' : Platform}
    (found : ((start { files, plan }).run events).find? name = some x) {index slotSize : Nat}
    {extend : Bool} {e : ProviderError}
    (failed : x.requestSlot index slotSize extend ((start { files, plan }).run events).state =
      (.error e, x', p')) :
    let p := ((start { files, plan }).run events).state
    x.Unchanged p x' p' ∨ x.region? = none ∧
      ((x' = x ∧ ∃ setup e, Region.open x.path setup p = (.error e, p')) ∨
        extend = true ∧ ∃ r, x'.state = .allocated r slotSize ∧
          r.capacity < (SharedIndex.slotAt index slotSize).span.stop) := by
  intro p
  have based := run_based (start_based (p := { files, plan }) tidy) events
  have indexed : x.Based p := based.index name x found
  cases SharedIndex.requestSlot_answered failed with
  | refused _ => exact .inl (.refl x p)
  | unopened absent _ opening => exact .inr ⟨absent, .inl ⟨rfl, _, _, opening⟩⟩
  | mapped state _ mapped =>
    cases mapped with
    | failed _ reserving =>
      exact .inl (indexed.unchanged based.tidy state (Region.reserve_alike reserving))
  | opened absent extending _ _ _ opening mapped =>
    cases mapped with
    | failed short reserving =>
      refine .inr ⟨absent, .inr ⟨extending, _, rfl, ?_⟩⟩
      rw [(Region.reserve_alike reserving).capacity_eq]
      exact short

/-- For instance a mapping that is refused for want of memory, of an index that has a slot. -/
theorem refused_slot_leaves_index :
    ∃ (x : SharedIndex) (p : Platform) (e : ProviderError) (x' : SharedIndex) (p' : Platform),
      x.slotSize? = some 8 ∧ x.requestSlot 3 8 true p = (.error e, x', p') ∧ x.Unchanged p x' p' := by
  let setup : RegionSetup := { mapper := { detection := .emulated } }
  let plan : CallPlan := { plain := [.granted, .refused Errno.noMemory] }
  let events : List IndexEvent := [.new "x" ⟨[0x78]⟩ setup 8, .ask "x" (.slot 0 8 true)]
  have answers : (((start { files := .empty, plan }).run events).find? "x").map (fun x =>
      (x.slotSize?, (x.requestSlot 3 8 true ((start { files := .empty, plan }).run events).state).1.isOk)) =
        some (some 8, false) := by
    dsimp +zetaDelta only
    cbv
  obtain ⟨x, found, answers⟩ := Option.map_eq_some_iff.mp answers
  obtain ⟨size, refused⟩ := Prod.mk.inj answers
  rcases failed : x.requestSlot 3 8 true ((start { files := .empty, plan }).run events).state with
    ⟨e | _, x', p'⟩ <;> rw [failed] at refused
  · obtain unchanged | ⟨absent, -⟩ := run_failed_request .empty plan FileSystem.tidy_empty events found failed
    · exact ⟨x, _, e, x', p', size, failed, unchanged⟩
    · obtain ⟨r, state⟩ := SharedIndex.slotSize?_eq_some size
      cases (SharedIndex.region?_of_state state).symm.trans absent
  · cases refused

/-- Where nothing is mapped yet, a request that fails may fix the size of the slots: another size is refused
after it that was not refused before. -/
theorem failed_request_allocates :
    let setup : RegionSetup := { mapper := { detection := .emulated } }
    let plan : CallPlan := { plain := [.granted, .refused Errno.noMemory] }
    let s : Indexes := (start { files := .empty, plan }).run [.new "x" ⟨[0x78]⟩ setup 4096]
    ∃ x e x' p', s.find? "x" = some x ∧ x.requestSlot 8 4096 true s.state = (.error e, x', p') ∧
      x.state = .unallocated ∧ x.slotSize? = none ∧ x'.slotSize? = some 4096 ∧
      x.capacity = 0 ∧ x'.capacity = 4096 ∧
      (x.requestSlot 0 8192 true s.state).1 = .ok (some ⟨0, 0, 8192⟩) ∧
      (x'.requestSlot 0 8192 true p').1 = .error (.slotSize 8192 4096) := by
  intro setup plan s
  let x : SharedIndex := .new ⟨[0x78]⟩ setup 4096
  have facts : (match x.requestSlot 8 4096 true s.state with
      | (.error _, x', p') => some (x'.slotSize?, x'.capacity,
          (x.requestSlot 0 8192 true s.state).1, (x'.requestSlot 0 8192 true p').1)
      | (.ok _, _, _) => none) =
        some (some 4096, 4096, .ok (some ⟨0, 0, 8192⟩), .error (.slotSize 8192 4096)) := by
    dsimp +zetaDelta only
    cbv
  rcases failed : x.requestSlot 8 4096 true s.state with ⟨e | _, x', p'⟩ <;> rw [failed] at facts
  · injection facts with facts
    injection facts with size facts
    injection facts with capacity facts
    injection facts with before after
    exact ⟨x, e, x', p', rfl, failed, rfl, rfl, size, rfl, capacity, before, after⟩
  · cases facts

end Indexes
end MappedStorage
