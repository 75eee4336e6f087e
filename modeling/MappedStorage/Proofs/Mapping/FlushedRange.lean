import Mathlib.Order.Bounds.Defs
import Mathlib.Order.Interval.Set.Basic
import MappedStorage.Proofs.MachineWords
import MappedStorage.Proofs.Mapping.FailedGrowth

/-!
The bytes that a flush reaches. Persistent memory is flushed for exactly the mapped bytes of the range, the
page cache from the start of the page that the first of them lies on (`Mapper.lead`). The arguments of the
primitive can be computed on machine words, where nothing wraps as long as the mapping is aligned
(`Region.flushOnWords`); `flush_exact` puts the range and the outcome together.
-/

namespace MappedStorage

/-- A flush goes on record. If it fails that is all. -/
theorem Platform.recorded_of_flush {p p' : Platform} {medium : Medium} {m : Mapping} {offset len : Nat}
    {failure : Option Errno} (call : p.flush medium m offset len = (failure, p')) :
    p'.calls = .flush medium m offset len failure :: p.calls ∧
      (failure ≠ none → p'.files = p.files ∧ p'.live = p.live) := by
  obtain ⟨plan, errno, flushed⟩ | ⟨plan, file, -, flushed⟩ := p.flush_cases medium m offset len <;>
    rw [flushed] at call <;> cases call
  · exact ⟨rfl, fun _ => ⟨rfl, rfl⟩⟩
  · exact ⟨rfl, fun failed => absurd rfl failed⟩

/-! ## The mapper -/

namespace Mapper

/-- How far before the bytes at an offset a flush of them starts. -/
def lead (mapper : Mapper) (medium : Medium) (m : Mapping) (offset : Nat) : Nat :=
  match medium with
  | .persistent => 0
  | .emulated => mapper.pageOffset m offset

/-- The address and the length that a primitive is called with for bytes at an address, computed on words. -/
def primitiveOnWords (mapper : Mapper) (medium : Medium) (address len : Nat) : Option (Nat × Nat) :=
  match medium with
  | .persistent => some (address, len)
  | .emulated => do
    let low ← Word.sub? mapper.pageSize 1
    let start := address &&& Word.complement low
    let before ← Word.sub? address start
    let total ← Word.add? len before
    return (start, total)

variable {mapper : Mapper} {m : Mapping} {medium : Medium} {offset len : Nat}

/-- One call is made for bytes that are not none. -/
theorem flush_of_pos (positive : 0 < len) (p : Platform) :
    mapper.flush m offset len medium p =
      let before := mapper.lead medium m offset
      let made := p.flush medium m (offset - before) (len + before)
      ((made.1.elim (.ok ()) fun errno => .error ⟨errno⟩), made.2) := by
  rw [flush_eq, if_neg (Nat.ne_of_gt positive)]
  rfl

/-- In a mapping that starts at a page no page of its bytes starts before it. -/
theorem lead_le (aligned : mapper.pageSize ∣ m.address) : mapper.lead medium m offset ≤ offset := by
  cases medium with
  | persistent => exact Nat.zero_le _
  | emulated =>
    rw [lead, pageOffset, Nat.add_mod, Nat.mod_eq_zero_of_dvd aligned, Nat.zero_add, Nat.mod_mod]
    exact Nat.mod_le ..

/-- The page cache is flushed from the last start of a page that is not after the bytes. -/
theorem lead_isGreatest (aligned : mapper.pageSize ∣ m.address) :
    IsGreatest {a | mapper.pageSize ∣ a ∧ a ≤ m.address + offset}
      (m.address + (offset - mapper.lead .emulated m offset)) := by
  have before_le : mapper.lead .emulated m offset ≤ offset := lead_le aligned
  have start : m.address + (offset - mapper.lead .emulated m offset) =
      mapper.pageSize * ((m.address + offset) / mapper.pageSize) := by
    have parts := Nat.div_add_mod (m.address + offset) mapper.pageSize
    simp only [lead, pageOffset] at before_le ⊢
    omega
  rw [start]
  refine ⟨⟨Nat.dvd_mul_right .., Nat.mul_div_le ..⟩, ?_⟩
  rintro a ⟨⟨count, rfl⟩, low⟩
  rcases Nat.eq_zero_or_pos mapper.pageSize with none | positive
  · simp [none]
  · refine Nat.mul_le_mul_left _ ((Nat.le_div_iff_mul_le positive).mpr ?_)
    rw [Nat.mul_comm]
    exact low

/-- Masking an address that is a word finds the page that it lies on. -/
theorem primitiveOnWords_eq {k : Nat} (page : mapper.pageSize = 2 ^ k) (aligned : mapper.pageSize ∣ m.address)
    (word : m.address + offset + len ≤ Word.max) :
    mapper.primitiveOnWords medium (m.address + offset) len =
      some (m.address + (offset - mapper.lead medium m offset), len + mapper.lead medium m offset) := by
  have before_le : mapper.lead medium m offset ≤ offset := lead_le aligned
  cases medium with
  | persistent => rfl
  | emulated =>
    have positive : 1 ≤ mapper.pageSize := by rw [page]; exact Nat.two_pow_pos k
    have rounded : (m.address + offset) &&& Word.complement (mapper.pageSize - 1) =
        m.address + offset - (m.address + offset) % mapper.pageSize := by
      rw [page]
      exact Word.and_complement_pred_two_pow (by omega) k
    have remainder_le := Nat.mod_le (m.address + offset) mapper.pageSize
    simp only [lead, pageOffset] at before_le ⊢
    rw [primitiveOnWords, Word.sub?_eq_some positive]
    simp only [Option.bind_eq_bind, Option.bind_some, rounded]
    rw [Word.sub?_eq_some (Nat.sub_le ..), Nat.sub_sub_self remainder_le, Option.bind_some,
      Word.add?_eq_some (by omega), Option.bind_some]
    exact congrArg (fun start => some (start, _)) (by omega)

end Mapper

/-! ## The region -/

namespace Region

/-- The address and the length that a primitive is called with to flush a range, if it is called at all,
computed on words. -/
def flushOnWords (r : Region) (f : Flush) : Option (Option (Nat × Nat)) :=
  match r.mapped with
  | none => some none
  | some m => do
    let stop := min f.span.stop m.len
    let start := min f.span.start stop
    let address ← Word.add? m.address start
    let len ← Word.sub? stop start
    if len = 0 then return none
    return some (← r.setup.mapper.primitiveOnWords f.medium address len)

variable {r : Region}

/-- Nothing is flushed where no byte of the range is mapped. -/
theorem flush_of_empty {f : Flush} (empty : min f.span.stop r.capacity ≤ f.span.start) (p : Platform) :
    r.flush f p = (.ok (), p) := by
  rcases Option.eq_none_or_eq_some r.mapped with mapped | ⟨m, mapped⟩
  · rw [flush, mapped]
  · have clipped : r.clip f.span = ⟨min f.span.stop r.capacity, min f.span.stop r.capacity⟩ := by
      rw [clip, Nat.min_eq_right empty]
    rw [flush_of_mapped mapped, clipped]
    simp only [Nat.sub_self]
    rfl

theorem flushOnWords_of_empty {f : Flush} (empty : min f.span.stop r.capacity ≤ f.span.start)
    (words : ∀ m ∈ r.mapped, m.address + m.len ≤ Word.max) : r.flushOnWords f = some none := by
  unfold flushOnWords
  rcases Option.eq_none_or_eq_some r.mapped with mapped | ⟨m, mapped⟩
  · rw [mapped]
  · have word := words m mapped
    rw [capacity_eq_of_mapped mapped] at empty
    simp only [mapped, Nat.min_eq_right empty]
    rw [Word.add?_eq_some (by omega), Word.sub?_eq_some (Nat.le_refl _), Nat.sub_self]
    rfl

/-- What a flush of a range comes to where some of it is mapped. -/
theorem flush_of_nonempty {f : Flush} {m : Mapping} (mapped : r.mapped = some m)
    (nonempty : f.span.start < min f.span.stop r.capacity) (p : Platform) :
    r.flush f p =
      let before := r.setup.mapper.lead f.medium m f.span.start
      let made := p.flush f.medium m (f.span.start - before)
        (min f.span.stop r.capacity - f.span.start + before)
      (match made.1 with | none => .ok () | some errno => .error (.io r.path (.os errno)), made.2) := by
  have clipped : r.clip f.span = ⟨f.span.start, min f.span.stop r.capacity⟩ := by
    rw [clip, Nat.min_eq_left (Nat.le_of_lt nonempty)]
  rw [flush_of_mapped mapped, clipped]
  dsimp only
  rw [Mapper.flush_of_pos (Nat.sub_pos_of_lt nonempty)]
  dsimp only
  cases (p.flush f.medium m _ _).1 <;> rfl

theorem flushOnWords_of_nonempty {f : Flush} {m : Mapping} {k : Nat} (mapped : r.mapped = some m)
    (nonempty : f.span.start < min f.span.stop r.capacity) (page : r.setup.mapper.pageSize = 2 ^ k)
    (aligned : r.setup.mapper.pageSize ∣ m.address) (word : m.address + m.len ≤ Word.max) :
    let before := r.setup.mapper.lead f.medium m f.span.start
    r.flushOnWords f = some (some (m.address + (f.span.start - before),
      min f.span.stop r.capacity - f.span.start + before)) := by
  have len := capacity_eq_of_mapped mapped
  rw [len] at nonempty ⊢
  unfold flushOnWords
  simp only [mapped, Nat.min_eq_left (Nat.le_of_lt nonempty)]
  rw [Word.add?_eq_some (by omega), Word.sub?_eq_some (Nat.le_of_lt nonempty)]
  simp only [Option.bind_eq_bind, Option.bind_some, if_neg (Nat.sub_ne_zero_of_lt nonempty)]
  rw [Mapper.primitiveOnWords_eq page aligned (by omega)]
  rfl

/-- A flush of a range calls no primitive, and succeeds, where none of it is mapped. Else it calls one, with
arguments that are computed without wrapping: for exactly the mapped bytes of the range in persistent
memory, and from the start of their first page in the page cache. The outcome is that of the call, and a call
that fails leaves files and mappings as they are. -/
theorem flush_exact {k : Nat} (page : r.setup.mapper.pageSize = 2 ^ k)
    (placed : ∀ m ∈ r.mapped, r.setup.mapper.pageSize ∣ m.address ∧ m.address + m.len ≤ Word.max)
    (f : Flush) (p : Platform) :
    let stop := min f.span.stop r.capacity
    (r.mapped = none ∨ stop ≤ f.span.start →
      r.flushOnWords f = some none ∧ r.flush f p = (.ok (), p)) ∧
    (f.span.start < stop → ∃ m first count failure p', r.mapped = some m ∧
      r.flushOnWords f = some (some (m.address + first, count)) ∧
      p.flush f.medium m first count = (failure, p') ∧
      p'.calls = .flush f.medium m first count failure :: p.calls ∧
      r.flush f p =
        (match failure with | none => .ok () | some errno => .error (.io r.path (.os errno)), p') ∧
      (failure ≠ none → p'.files = p.files ∧ p'.live = p.live) ∧
      Set.Ico f.span.start stop ⊆ Set.Ico first (first + count) ∧
      Set.Ico first (first + count) ⊆ Set.Ico 0 m.len ∧
      first + count = stop ∧
      match f.medium with
      | .persistent => first = f.span.start
      | .emulated => IsGreatest {a | r.setup.mapper.pageSize ∣ a ∧ a ≤ m.address + f.span.start}
          (m.address + first)) := by
  refine ⟨fun nothing => ?_, fun nonempty => ?_⟩
  · have empty : min f.span.stop r.capacity ≤ f.span.start := by
      rcases nothing with unmapped | empty
      · rw [capacity, unmapped, Nat.min_zero]
        exact Nat.zero_le _
      · exact empty
    exact ⟨flushOnWords_of_empty empty fun m mapped => (placed m mapped).2, flush_of_empty empty p⟩
  · obtain ⟨m, mapped⟩ := exists_mapping (r := r) (by omega)
    obtain ⟨aligned, word⟩ := placed m mapped
    have len := capacity_eq_of_mapped mapped
    have before_le : r.setup.mapper.lead f.medium m f.span.start ≤ f.span.start := Mapper.lead_le aligned
    have on_words := flushOnWords_of_nonempty mapped nonempty page aligned word
    have flushed := flush_of_nonempty mapped nonempty p
    dsimp only at on_words flushed
    rcases call : p.flush f.medium m (f.span.start - r.setup.mapper.lead f.medium m f.span.start)
      (min f.span.stop r.capacity - f.span.start + r.setup.mapper.lead f.medium m f.span.start)
      with ⟨failure, p'⟩
    obtain ⟨calls, unchanged⟩ := Platform.recorded_of_flush call
    rw [call] at flushed
    refine ⟨m, _, _, failure, p', mapped, on_words, call, calls, flushed, unchanged, ?_, ?_, by omega, ?_⟩
    · exact Set.Ico_subset_Ico (by omega) (by omega)
    · exact Set.Ico_subset_Ico (Nat.zero_le _) (by omega)
    · cases f.medium with
      | persistent => rfl
      | emulated => exact Mapper.lead_isGreatest aligned

/-- For instance a range that starts on the second of three pages, a byte after the start of the page. -/
theorem unaligned_range_flushed :
    let setup : RegionSetup := { mapper := { detection := .emulated }, initialCapacity := 12288 }
    let f : Flush := ⟨.emulated, ⟨4097, 9097⟩⟩
    ∃ r p m p', Region.open ⟨[0x78]⟩ setup .empty = (.ok r, p) ∧ r.mapped = some m ∧
      r.flush f p = (.ok (), p') ∧ p'.calls = .flush .emulated m 4096 5001 none :: p.calls := by
  intro setup f
  have opens : (match Region.open ⟨[0x78]⟩ setup .empty with
      | (.ok r, p) => r.mapped.map fun m => (r.setup.mapper.pageSize, m.address, r.capacity,
          r.flushOnWords f, (r.flush f p).1.isOk)
      | (.error _, _) => none) =
        some (4096, 0x7F7FFFFFC000, 12288, some (some (0x7F7FFFFFD000, 5001)), true) := by
    dsimp +zetaDelta only
    cbv
  rcases opened : Region.open ⟨[0x78]⟩ setup .empty with ⟨_ | r, p⟩ <;> rw [opened] at opens
  · cases opens
  · obtain ⟨m, mapped, seen⟩ := Option.map_eq_some_iff.mp opens
    simp only [Prod.mk.injEq] at seen
    obtain ⟨page, address, capacity, on_words, granted⟩ := seen
    have len := capacity_eq_of_mapped mapped
    have placed : ∀ n ∈ r.mapped, r.setup.mapper.pageSize ∣ n.address ∧ n.address + n.len ≤ Word.max := by
      intro n also
      obtain rfl : m = n := Option.some.inj (mapped.symm.trans also)
      rw [page, address, ← len, capacity]
      decide
    have nonempty : f.span.start < min f.span.stop r.capacity := by rw [capacity]; decide
    obtain ⟨n, first, count, failure, p', also, words, -, calls, flushed, -⟩ :=
      (flush_exact (k := 12) page placed f p).2 nonempty
    obtain rfl : m = n := Option.some.inj (mapped.symm.trans also)
    rw [on_words, address] at words
    simp only [Option.some.injEq, Prod.mk.injEq] at words
    obtain ⟨start, rfl⟩ := words
    obtain rfl : first = 4096 := by omega
    rw [flushed] at granted
    cases failure with
    | some errno => cases granted
    | none => exact ⟨r, p, m, p', rfl, mapped, flushed, calls⟩

end Region
end MappedStorage
