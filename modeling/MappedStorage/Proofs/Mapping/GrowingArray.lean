import MappedStorage.Proofs.Mapping.Lifetime

/-!
A region is a growable array. The array has bytes and room; what an operation answers and what it
makes of the array is said by `GrowingArray.Follows`, with no word of files, mappings or flushes. A
region opened over a file follows the array that starts with the bytes of the file, through any
operations and whatever calls fail, and closing it leaves the array in the file
(`open_follows_array`).
-/

namespace MappedStorage

/-- What is asked of a region between opening and closing it. -/
inductive RegionRequest where
  | write (offset : Nat) (data : Bytes)
  | read (offset : Nat) (buffer : Bytes)
  | reserve (least : Nat)
  | flush (f : Flush)
  | flushWhole

/-- What a region answers. -/
inductive RegionAnswer where
  | wrote (result : Except RegionError Span)
  /-- The outcome of a read and the buffer after it. -/
  | read (result : Except RegionError Unit) (filled : Bytes)
  | reserved (result : Except RegionError Unit)
  | flushed (result : Except RegionError Unit)

namespace Region

/-- Does what is asked of a region. -/
def serve (r : Region) (p : Platform) : RegionRequest → RegionAnswer × Region × Platform
  | .write offset data =>
    let (result, r, p) := r.write offset data p
    (.wrote result, r, p)
  | .read offset buffer =>
    let (result, filled) := r.readInto offset buffer p
    (.read result filled, r, p)
  | .reserve least =>
    let (result, r, p) := r.reserve least p
    (.reserved result, r, p)
  | .flush f =>
    let (result, p) := r.flush f p
    (.flushed result, r, p)
  | .flushWhole =>
    let (result, p) := r.flushWhole p
    (.flushed result, r, p)

/-- Does what is asked, in order. -/
def serveAll (r : Region) (p : Platform) :
    List RegionRequest → List RegionAnswer × Region × Platform
  | [] => ([], r, p)
  | request :: rest =>
    let (answer, r, p) := r.serve p request
    let (answers, r, p) := r.serveAll p rest
    (answer :: answers, r, p)

end Region

/-- An array of bytes with the room that it can grow into. -/
structure GrowingArray where
  bytes : Bytes
  room : Nat

namespace GrowingArray

/-- What an array answers to a request, and what it is afterwards. Only a lack of room lets a write or
a reservation fail, and then nothing changes. -/
def Follows (a : GrowingArray) : RegionRequest → RegionAnswer → GrowingArray → Prop
  | .write offset data, .wrote (.ok written), a' =>
    written = ⟨offset, offset + data.size⟩ ∧ a'.bytes = overlaid a.bytes offset data ∧
      a.room ≤ a'.room ∧ (data.size = 0 → a' = a) ∧ (0 < data.size → offset + data.size ≤ a'.room)
  | .write offset data, .wrote (.error _), a' => a.room < offset + data.size ∧ a' = a
  | .read offset buffer, .read result filled, a' =>
    result = (if offset + buffer.size ≤ a.bytes.size then .ok ()
      else .error (.shortRead offset buffer.size a.bytes.size)) ∧
      filled = window a.bytes offset buffer.size ∧ a' = a
  | .reserve least, .reserved (.ok ()), a' =>
    a'.bytes = a.bytes ∧ a.room ≤ a'.room ∧ least ≤ a'.room
  | .reserve least, .reserved (.error _), a' => a.room < least ∧ a' = a
  | .flush _, .flushed _, a' => a' = a
  | .flushWhole, .flushed _, a' => a' = a
  | _, _, _ => False

/-- What an array answers to requests in order, and what it is in the end. -/
inductive FollowsAll : GrowingArray → List RegionRequest → List RegionAnswer → GrowingArray → Prop
  | done (a : GrowingArray) : FollowsAll a [] [] a
  | next {a b c : GrowingArray} {request : RegionRequest} {answer : RegionAnswer}
      {rest : List RegionRequest} {answers : List RegionAnswer} :
      a.Follows request answer b → FollowsAll b rest answers c →
      FollowsAll a (request :: rest) (answer :: answers) c

end GrowingArray

namespace Region

/-- The array that a region is. -/
def array (r : Region) (p : Platform) : GrowingArray := ⟨r.validBytes p, r.capacity⟩

variable {r r' : Region} {p p' : Platform}

theorem Settled.array_eq (settled : r.Settled p p') (sound : r.Sound p) : r.array p' = r.array p := by
  rw [array, array, settled.validBytes sound]

/-- What requests keep, whatever they come to. -/
structure Served (r : Region) (p : Platform) (r' : Region) (p' : Platform) : Prop where
  alone : r'.Alone p'
  same : r.SameRegion r'
  onlyFile : p.OnlyFile r.fileId p'

theorem Served.refl (alone : r.Alone p) : Served r p r p := ⟨alone, .refl r, .refl ..⟩

theorem Served.trans {s : Region} {q : Platform} (first : Served r p s q) (second : Served s q r' p') :
    Served r p r' p' :=
  ⟨second.alone, first.same.trans second.same,
    first.onlyFile.trans (first.same.fileId_eq ▸ second.onlyFile)⟩

theorem Settled.served (settled : r.Settled p p') (alone : r.Alone p) : Served r p r p' :=
  ⟨settled.alone alone, .refl r, settled.onlyFile⟩

/-- One request: the region stays alone with its file, and it answers and changes as the array
does. -/
theorem serve_follows {request : RegionRequest} {answer : RegionAnswer} (alone : r.Alone p)
    (served : r.serve p request = (answer, r', p')) :
    (r.array p).Follows request answer (r'.array p') ∧ Served r p r' p' := by
  cases request with
  | write offset data =>
    rw [serve] at served
    rcases writing : r.write offset data p with ⟨result, s, q⟩
    rw [writing] at served
    cases served
    obtain ⟨kept, sound, larger, correct⟩ := write_correct alone.toSound writing
    refine ⟨?_, correct.alone alone kept sound, kept.same, kept.onlyFile⟩
    cases result with
    | ok written =>
      have bytes := correct.validBytes_ok alone.clear sound
      obtain ⟨span, ⟨empty, rfl, rfl⟩ | ⟨nonempty, room, _⟩⟩ := correct
      · exact ⟨span, bytes, larger, fun _ => rfl, fun nonempty => absurd empty (by omega)⟩
      · exact ⟨span, bytes, larger, fun empty => absurd empty (by omega), fun _ => room⟩
    | error e =>
      have bytes := correct.validBytes_error alone.toSound sound
      obtain ⟨short, mapped, _⟩ := correct
      refine ⟨short, ?_⟩
      rw [array, array, bytes, capacity, capacity, mapped]
  | read offset buffer =>
    rw [serve] at served
    have read := readInto_correct alone.toSound offset buffer
    rw [read] at served
    cases served
    have used := size_validBytes alone.toSound
    exact ⟨⟨by rw [array, used], rfl, rfl⟩, .refl alone⟩
  | reserve least =>
    rw [serve] at served
    rcases reserving : r.reserve least p with ⟨result, s, q⟩
    rw [reserving] at served
    cases served
    obtain ⟨grown, sound, larger, correct⟩ := reserve_correct alone.toSound reserving
    have bytes := grown.validBytes alone.toSound sound
    refine ⟨?_, grown.alone alone sound, grown.same, grown.onlyFile⟩
    cases result with
    | ok => exact ⟨bytes, larger, correct⟩
    | error e =>
      obtain ⟨short, mapped, _⟩ := correct
      refine ⟨short, ?_⟩
      rw [array, array, bytes, capacity, capacity, mapped]
  | flush f =>
    have settled := flush_settled (p := p) alone.shows f
    cases served
    exact ⟨settled.array_eq alone.toSound, settled.served alone⟩
  | flushWhole =>
    have settled := flush_settled (p := p) alone.shows ⟨r.medium, ⟨0, r.capacity⟩⟩
    cases served
    exact ⟨settled.array_eq alone.toSound, settled.served alone⟩

/-- Requests in order. -/
theorem serveAll_follows (requests : List RegionRequest) (alone : r.Alone p) :
    let (answers, r', p') := r.serveAll p requests
    (r.array p).FollowsAll requests answers (r'.array p') ∧ Served r p r' p' := by
  induction requests generalizing r p with
  | nil => exact ⟨.done _, .refl alone⟩
  | cons request rest ih =>
    rw [serveAll]
    rcases serving : r.serve p request with ⟨answer, s, q⟩
    obtain ⟨follows, served⟩ := serve_follows alone serving
    obtain ⟨followsAll, servedAll⟩ := ih served.alone
    exact ⟨.next follows followsAll, served.trans servedAll⟩

/-- A region opened over a file that nothing else uses answers any requests as the array does that
starts with the bytes of the file. After them it has the size and the bytes of the array. Closing it
leaves the array in the file of its path, and a region opened there starts from it again. -/
theorem open_follows_array {path : Path} {setup : RegionSetup} {p p₁ : Platform} {r : Region}
    (trims : setup.trimOnClose = true) (opened : Region.open path setup p = (.ok r, p₁))
    (unshared : p.mappingsOf r.fileId = []) (requests : List RegionRequest) :
    let (answers, r', p₂) := r.serveAll p₁ requests
    let p₃ := (r'.close p₂).2.2
    ∃ a : GrowingArray,
      GrowingArray.FollowsAll ⟨p.files.bytesAt path, r.capacity⟩ requests answers a ∧
      r'.used = a.bytes.size ∧ r'.validBytes p₂ = a.bytes ∧ r'.capacity = a.room ∧
      (∃ h, p₃.files.openExisting path true = .ok h ∧ (p₃.files.file h.file).contents = a.bytes) ∧
      ∀ setup' s p₄, Region.open path setup' p₃ = (.ok s, p₄) →
        s.used = a.bytes.size ∧ s.validBytes p₄ = a.bytes := by
  obtain ⟨opening, at_path⟩ := open_correct opened
  have alone := at_path.alone unshared
  obtain ⟨follows, served⟩ := serveAll_follows requests alone
  rcases serving : r.serveAll p₁ requests with ⟨answers, r', p₂⟩
  rw [serving] at follows served
  dsimp only at follows served ⊢
  have closed := served.alone.close_closed
  have trims' : r'.setup.trimOnClose = true := by rw [served.same.setup, at_path.setup_eq, trims]
  have contents := closed.contents served.alone trims'
  have leads : (r'.close p₂).2.2.files.openExisting path true = .ok r.file.handle := by
    rw [closed.onlyFile.names.openExisting, served.onlyFile.names.openExisting, at_path.leads]
  rw [served.same.backing_eq] at contents
  have bytes : (r'.close p₂).2.2.files.bytesAt path = r'.validBytes p₂ := by
    rw [FileSystem.bytesAt, leads]
    exact contents
  have used := size_validBytes served.alone.toSound
  refine ⟨r'.array p₂, ?_, used.symm, rfl, rfl, ⟨_, leads, contents⟩, fun setup' s p₄ again => ?_⟩
  · have start : r.array p₁ = ⟨p.files.bytesAt path, r.capacity⟩ := by rw [array, at_path.bytes]
    rw [← start]
    exact follows
  · obtain ⟨_, reopened⟩ := open_correct again
    exact ⟨by rw [reopened.used, bytes]; rfl, by rw [reopened.bytes, bytes]; rfl⟩

/-- For instance over a new file that is written to past its end, so that it has to grow, and is then asked
for more room. Both are granted. -/
theorem new_file_follows_array :
    ∃ r p₁, Region.open ⟨[0x78]⟩ { initialCapacity := 4 } .empty = (.ok r, p₁) ∧
      Platform.empty.mappingsOf r.fileId = [] ∧
      let (answers, r', p₂) := r.serveAll p₁ [.write 3 #[1, 2], .flushWhole, .reserve 100]
      let p₃ := (r'.close p₂).2.2
      answers = [.wrote (.ok ⟨3, 5⟩), .flushed (.ok ()), .reserved (.ok ())] ∧
      ∃ a : GrowingArray,
        GrowingArray.FollowsAll ⟨Platform.empty.files.bytesAt ⟨[0x78]⟩, r.capacity⟩
          [.write 3 #[1, 2], .flushWhole, .reserve 100] answers a ∧
        r'.used = a.bytes.size ∧ r'.validBytes p₂ = a.bytes ∧ r'.capacity = a.room ∧
        (∃ h, p₃.files.openExisting ⟨[0x78]⟩ true = .ok h ∧
          (p₃.files.file h.file).contents = a.bytes) ∧
        ∀ setup' s p₄, Region.open ⟨[0x78]⟩ setup' p₃ = (.ok s, p₄) →
          s.used = a.bytes.size ∧ s.validBytes p₄ = a.bytes := by
  have isOk : (Region.open ⟨[0x78]⟩ { initialCapacity := 4 } .empty).1.isOk = true := by cbv
  have answers : (Region.open ⟨[0x78]⟩ { initialCapacity := 4 } .empty).1.toOption.map
      (fun r => (r.serveAll (Region.open ⟨[0x78]⟩ { initialCapacity := 4 } .empty).2
        [.write 3 #[1, 2], .flushWhole, .reserve 100]).1) =
      some [.wrote (.ok ⟨3, 5⟩), .flushed (.ok ()), .reserved (.ok ())] := by cbv
  obtain ⟨r, p₁, opened⟩ := exists_of_isOk isOk
  rw [opened] at answers
  exact ⟨r, p₁, opened, rfl, Option.some.inj answers, open_follows_array rfl opened rfl _⟩

end Region
end MappedStorage
