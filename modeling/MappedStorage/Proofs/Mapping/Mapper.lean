import Mathlib.Data.List.Permutation
import MappedStorage.Mapping.Mapper
import MappedStorage.Proofs.System.Contents
import MappedStorage.Proofs.System.Resolution

/-!
What requests of a mapper do to the platform. A request for a mapping puts one in place or none
(`Requested`, `Mapper.map_requested`), a flush touches one file (`Platform.flush_onlyFile`), and the
calls on record tell which of them were flushes.
-/

namespace MappedStorage

/-- The call is a flush. -/
def Call.isFlush : Call → Bool
  | .flush .. => true
  | _ => false

namespace Platform

/-- The mappings in place of a file. -/
def mappingsOf (p : Platform) (id : FileId) : List Mapping := p.live.filter (·.file = id)

/-- Nothing differs between two platforms but one file, its mappings, the calls and the plan. -/
structure OnlyFile (p : Platform) (id : FileId) (p' : Platform) : Prop where
  names : p.files.SameNames p'.files
  others : ∀ other, other ≠ id → p'.files.file other = p.files.file other
  mappings : ∀ other, other ≠ id → (p'.mappingsOf other).Perm (p.mappingsOf other)

/-- Nothing differs between two platforms about a file and its mappings. -/
structure Spares (p : Platform) (id : FileId) (p' : Platform) : Prop where
  file : p'.files.file id = p.files.file id
  mappings : (p'.mappingsOf id).Perm (p.mappingsOf id)

/-- The calls made from one platform to another, none of them a flush. -/
def NoFlush (p p' : Platform) : Prop :=
  ∃ made, p'.calls = made ++ p.calls ∧ ∀ call ∈ made, call.isFlush = false

theorem OnlyFile.refl (p : Platform) (id : FileId) : p.OnlyFile id p :=
  ⟨.refl _, fun _ _ => rfl, fun _ _ => .refl _⟩

theorem OnlyFile.trans {p q s : Platform} {id : FileId} (first : p.OnlyFile id q)
    (second : q.OnlyFile id s) : p.OnlyFile id s :=
  ⟨first.names.trans second.names,
    fun other h => (second.others other h).trans (first.others other h),
    fun other h => (second.mappings other h).trans (first.mappings other h)⟩

theorem Spares.refl (p : Platform) (id : FileId) : p.Spares id p := ⟨rfl, .refl _⟩

theorem Spares.trans {p q s : Platform} {id : FileId} (first : p.Spares id q)
    (second : q.Spares id s) : p.Spares id s :=
  ⟨second.file.trans first.file, second.mappings.trans first.mappings⟩

theorem OnlyFile.spares {p p' : Platform} {id other : FileId} (only : p.OnlyFile id p')
    (different : other ≠ id) : p.Spares other p' :=
  ⟨only.others other different, only.mappings other different⟩

theorem NoFlush.refl (p : Platform) : p.NoFlush p := ⟨[], rfl, by simp⟩

theorem NoFlush.of_call {p p' : Platform} {call : Call} (made : p'.calls = call :: p.calls)
    (other : call.isFlush = false) : p.NoFlush p' :=
  ⟨[call], made, by simpa using other⟩

theorem NoFlush.trans {p q s : Platform} (first : p.NoFlush q) (second : q.NoFlush s) :
    p.NoFlush s := by
  obtain ⟨early, early_eq, early_none⟩ := first
  obtain ⟨late, late_eq, late_none⟩ := second
  refine ⟨late ++ early, by rw [late_eq, early_eq, List.append_assoc], fun call member => ?_⟩
  rcases List.mem_append.mp member with h | h
  · exact late_none call h
  · exact early_none call h

/-- A mapping of another file that is in place was in place. -/
theorem OnlyFile.mem_live {p p' : Platform} {id : FileId} (only : p.OnlyFile id p') {m : Mapping}
    (different : m.file ≠ id) : m ∈ p'.live ↔ m ∈ p.live := by
  have same := (only.mappings m.file different).mem_iff (a := m)
  simpa [mappingsOf] using same

theorem perm_enlist (m : Mapping) (live : List Mapping) : (enlist m live).Perm (m :: live) := by
  induction live with
  | nil => exact .refl _
  | cons other rest ih =>
    rw [enlist]
    split
    · exact .refl _
    · exact (ih.cons other).trans (.swap ..)

end Platform

/-! ## Mappings -/

/-- What a request for a mapping of a file comes to: the mapping is in place besides the others, or
there is none. The files are as they were. -/
structure Requested (h : Handle) (len : Nat) (p p' : Platform) (granted : Option Mapping) : Prop where
  files : p'.files = p.files
  calls : p.NoFlush p'
  live : p'.live.Perm (granted.toList ++ p.live)
  fits : ∀ m ∈ granted, m.file = h.file ∧ m.len = len

namespace Requested

variable {h : Handle} {len : Nat} {p q p' : Platform} {granted : Option Mapping}

theorem nothing (h : Handle) (len : Nat) (p : Platform) : Requested h len p p none :=
  ⟨rfl, .refl p, .refl _, by simp⟩

theorem after (first : Requested h len p q none) (second : Requested h len q p' granted) :
    Requested h len p p' granted :=
  ⟨second.files.trans first.files, first.calls.trans second.calls,
    second.live.trans (first.live.append_left _), second.fits⟩

theorem mappingsOf (request : Requested h len p p' granted) (id : FileId) :
    (p'.mappingsOf id).Perm (granted.toList.filter (·.file = id) ++ p.mappingsOf id) := by
  have kept := request.live.filter (·.file = id)
  rwa [List.filter_append] at kept

theorem onlyFile (request : Requested h len p p' granted) : p.OnlyFile h.file p' := by
  refine ⟨by rw [request.files]; exact .refl _, fun _ _ => by rw [request.files], ?_⟩
  intro other different
  have here := request.mappingsOf other
  cases granted with
  | none => exact here
  | some m =>
    have elsewhere : m.file ≠ other := by
      rw [(request.fits m rfl).1]
      exact different.symm
    rwa [Option.toList_some, List.filter_cons_of_neg (by simpa using elsewhere)] at here

end Requested

theorem Platform.map_requested (p : Platform) (h : Handle) (len : Nat) (sharing : Sharing) :
    Requested h len p (p.map h len sharing).2 (p.map h len sharing).1.toOption := by
  rw [Platform.map]
  split
  rename_i o plan _
  dsimp only
  split
  · exact ⟨rfl, Platform.NoFlush.of_call rfl rfl, .refl _, by simp [Except.toOption]⟩
  · exact ⟨rfl, Platform.NoFlush.of_call rfl rfl, .refl _, by simp [Except.toOption]⟩
  · exact ⟨rfl, Platform.NoFlush.of_call rfl rfl, Platform.perm_enlist .., by simp [Except.toOption]⟩

namespace Mapper

theorem attempt_requested (h : Handle) (len : Nat) (sharing : Sharing) (p : Platform) :
    Requested h len p (attempt h len sharing p).2 (attempt h len sharing p).1.toOption := by
  have request := p.map_requested h len sharing
  rw [attempt]
  split <;> rename_i mapped <;> rw [mapped] at request <;> exact request

theorem mapPlain_requested (m : Mapper) (h : Handle) (len : Nat) (p : Platform) :
    Requested h len p (m.mapPlain h len p).2 ((m.mapPlain h len p).1.toOption.map (·.1)) := by
  have request := attempt_requested h len .plain p
  rw [mapPlain]
  split <;> rename_i mapped <;> rw [mapped] at request <;> exact request

/-- Whichever attempts are made, at most one mapping comes of them. -/
theorem map_requested (m : Mapper) (h : Handle) (len : Nat) (p : Platform) :
    Requested h len p (m.map h len p).2 ((m.map h len p).1.toOption.map (·.1)) := by
  rw [map]
  split
  · exact .nothing h len p
  · split
    · have request := attempt_requested h len .synchronous p
      split <;> rename_i mapped <;> rw [mapped] at request
      · exact request
      · split
        · exact Requested.after request (m.mapPlain_requested ..)
        · exact request
    · exact m.mapPlain_requested h len p

theorem snd_unmap (mapping : Mapping) (p : Platform) : (unmap mapping p).2 = (p.unmap mapping).2 := by
  rw [unmap]
  split <;> rename_i unmapped <;> rw [unmapped]

@[simp] theorem unmap_files (mapping : Mapping) (p : Platform) :
    (unmap mapping p).2.files = p.files := by
  rw [snd_unmap]
  rfl

theorem unmap_live (mapping : Mapping) (p : Platform) :
    (unmap mapping p).2.live = p.live.erase mapping := by
  rw [snd_unmap]
  rfl

theorem unmap_noFlush (mapping : Mapping) (p : Platform) : p.NoFlush (unmap mapping p).2 := by
  rw [snd_unmap]
  exact .of_call rfl rfl

theorem unmap_mappingsOf (mapping : Mapping) (p : Platform) (id : FileId) :
    (unmap mapping p).2.mappingsOf id = (p.mappingsOf id).erase mapping := by
  rw [Platform.mappingsOf, unmap_live, Platform.mappingsOf, List.erase_filter]

theorem unmap_onlyFile (mapping : Mapping) (p : Platform) :
    p.OnlyFile mapping.file (unmap mapping p).2 := by
  refine ⟨by rw [unmap_files]; exact .refl _, fun _ _ => by rw [unmap_files], ?_⟩
  intro other different
  have absent : mapping ∉ p.mappingsOf other := by
    simpa [Platform.mappingsOf] using fun _ => different.symm
  rw [unmap_mappingsOf, List.erase_of_not_mem absent]

end Mapper

/-! ## Flushes and stores -/

namespace Platform

/-- All that a flush does: the call goes on record, and if it succeeds the bytes of the range become
durable. -/
theorem flush_cases (p : Platform) (medium : Medium) (m : Mapping) (offset len : Nat) :
    (∃ plan errno, p.flush medium m offset len =
      (some errno, { p with plan, calls := .flush medium m offset len (some errno) :: p.calls })) ∨
    ∃ plan f', (f' = (p.files.file m.file).settle offset (offset + len) ∨
        f' = ((p.files.file m.file).settle offset (offset + len)).clearPastEnd) ∧
      p.flush medium m offset len =
        (none, { p with
          plan, calls := .flush medium m offset len none :: p.calls
          files := p.files.setFile m.file f' }) := by
  unfold flush
  split
  rename_i failure plan _
  dsimp only
  cases failure with
  | some errno => exact .inl ⟨plan, errno, rfl⟩
  | none =>
    refine .inr ⟨plan, _, ?_, rfl⟩
    split
    · exact .inr rfl
    · exact .inl rfl

variable (p : Platform) (medium : Medium) (m : Mapping) (offset len : Nat)

theorem onlyFile_setFile (id : FileId) (f : File) :
    p.OnlyFile id { p with files := p.files.setFile id f } :=
  ⟨p.files.sameNames_setFile id f, fun _ different => FileSystem.file_setFile_of_ne _ _ different,
    fun _ _ => .refl _⟩

theorem flush_onlyFile : p.OnlyFile m.file (p.flush medium m offset len).2 := by
  obtain ⟨plan, errno, flushed⟩ | ⟨plan, f', _, flushed⟩ := p.flush_cases medium m offset len
  · rw [flushed]
    exact ⟨.refl _, fun _ _ => rfl, fun _ _ => .refl _⟩
  · rw [flushed]
    exact ⟨p.files.sameNames_setFile m.file f',
      fun _ different => FileSystem.file_setFile_of_ne _ _ different, fun _ _ => .refl _⟩

theorem flush_live : (p.flush medium m offset len).2.live = p.live := by
  obtain ⟨plan, errno, flushed⟩ | ⟨plan, f', _, flushed⟩ := p.flush_cases medium m offset len <;>
    rw [flushed]

theorem flush_calls : (p.flush medium m offset len).2.calls =
    .flush medium m offset len (p.flush medium m offset len).1 :: p.calls := by
  obtain ⟨plan, errno, flushed⟩ | ⟨plan, f', _, flushed⟩ := p.flush_cases medium m offset len <;>
    rw [flushed]

theorem flush_flushed : (p.files.file m.file).Flushed
    ((p.flush medium m offset len).2.files.file m.file) := by
  obtain ⟨plan, errno, flushed⟩ | ⟨plan, f', settled, flushed⟩ :=
    p.flush_cases medium m offset len
  · rw [flushed]
    exact .refl _
  · rw [flushed, FileSystem.file_setFile_self]
    exact .inr ⟨offset, offset + len, settled⟩

/-- A flush that succeeds makes the bytes of its range durable. -/
theorem flush_durable {p p' : Platform} {medium : Medium} {m : Mapping} {offset len i : Nat}
    (succeeded : p.flush medium m offset len = (none, p')) (low : offset ≤ i)
    (high : i < offset + len) (inside : i < (p.files.file m.file).size) :
    (p'.files.file m.file).Durable i ((p.files.file m.file).byte i) := by
  obtain ⟨plan, errno, flushed⟩ | ⟨plan, f', settled, flushed⟩ :=
    p.flush_cases medium m offset len
  · rw [flushed] at succeeded
    cases succeeded
  · rw [flushed] at succeeded
    cases succeeded
    rw [FileSystem.file_setFile_self]
    exact .settle inside low high settled

end Platform

/-- A mapper flushes with one call that covers the range, or with none if the range is empty. -/
theorem Mapper.flush_cases (m : Mapper) (mapping : Mapping) (offset len : Nat) (medium : Medium)
    (p : Platform) :
    (len = 0 ∧ m.flush mapping offset len medium p = (.ok (), p)) ∨
    ∃ first count failure p', 0 < len ∧ first ≤ offset ∧ offset + len ≤ first + count ∧
      p.flush medium mapping first count = (failure, p') ∧
      m.flush mapping offset len medium p =
        (match failure with | none => .ok () | some errno => .error ⟨errno⟩, p') := by
  unfold Mapper.flush
  by_cases empty : len = 0
  · rw [if_pos empty]
    exact .inl ⟨empty, rfl⟩
  · rw [if_neg empty]
    cases medium with
    | persistent =>
      rcases flushed : p.flush .persistent mapping (offset - 0) (len + 0) with ⟨failure, p'⟩
      refine .inr ⟨_, _, failure, p', by omega, by omega, by omega, flushed, ?_⟩
      cases failure <;> simp only [flushed]
    | emulated =>
      rcases flushed : p.flush .emulated mapping (offset - m.pageOffset mapping offset)
        (len + m.pageOffset mapping offset) with ⟨failure, p'⟩
      refine .inr ⟨_, _, failure, p', by omega, by omega, by omega, flushed, ?_⟩
      cases failure <;> simp only [flushed]

end MappedStorage
