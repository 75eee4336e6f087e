import MappedStorage.System.Patchwork

/-!
The contents of a file. Besides the bytes that reads and mappings see, a file keeps the bytes
that a crash leaves behind; a flush makes the two agree on a range (`File.settle`), and the
length survives. Mappings show whole pages, so bytes past the end can be stored and seen in
memory. They are not part of the file: a change of length clears them (`File.byte_resize`).
-/

namespace MappedStorage

/-- The length of a file, the bytes that memory shows, also past the end, and the bytes that a
crash leaves. -/
structure File where
  size : Nat
  memory : Patchwork
  stable : Patchwork
  stable_beyond : ∀ i, size ≤ i → stable.byte i = 0

namespace File

/-- The file without bytes. -/
def empty : File := ⟨0, .blank, .blank, fun _ _ => rfl⟩

instance : Inhabited File := ⟨empty⟩

/-- The byte that memory shows at an offset. -/
def byte (f : File) (i : Nat) : UInt8 := f.memory.byte i

/-- The bytes of a range, as memory shows them. -/
def slice (f : File) (start len : Nat) : Bytes := f.memory.slice start len

/-- All bytes of a file. -/
def contents (f : File) : Bytes := f.slice 0 f.size

/-- A file holding some bytes, durably. -/
def ofBytes (data : Bytes) : File where
  size := data.size
  memory := Patchwork.blank.lay 0 data
  stable := Patchwork.blank.lay 0 data
  stable_beyond i h := by rw [Patchwork.byte_lay, if_neg (by omega), Patchwork.byte_blank]

/-- The same file with zeros past its end in memory. -/
def clearPastEnd (f : File) : File := { f with memory := f.memory.below f.size }

/-- Another length: what is cut off is lost, what is added is zero. -/
def resize (f : File) (size : Nat) : File where
  size := size
  memory := f.memory.below (min f.size size)
  stable := f.stable.below size
  stable_beyond i h := by rw [Patchwork.byte_below, if_neg (by omega)]

/-- Some bytes laid over what memory shows of a file from an offset on. -/
def overlay (f : File) (offset : Nat) (data : Bytes) : File :=
  { f with memory := f.memory.lay offset data }

/-- The bytes of a range made durable, as far as the file reaches. -/
def settle (f : File) (start stop : Nat) : File where
  size := f.size
  memory := f.memory
  stable := f.stable.splice f.memory start (min stop f.size)
  stable_beyond i h := by rw [Patchwork.byte_splice, if_neg (by omega), f.stable_beyond i h]

/-- What is left of a file after a crash. -/
def crash (f : File) : File := { f with memory := f.stable }

@[simp] theorem size_resize (f : File) (n : Nat) : (f.resize n).size = n := rfl
@[simp] theorem size_overlay (f : File) (o : Nat) (d : Bytes) : (f.overlay o d).size = f.size := rfl
@[simp] theorem size_settle (f : File) (a b : Nat) : (f.settle a b).size = f.size := rfl
@[simp] theorem size_clearPastEnd (f : File) : f.clearPastEnd.size = f.size := rfl

/-- A slice has the bytes of its range. -/
theorem slice_eq_ofFn (f : File) (start len : Nat) :
    f.slice start len = Array.ofFn fun i : Fin len => f.byte (start + i) :=
  f.memory.slice_eq start len

theorem byte_ofBytes (data : Bytes) (i : Nat) : (ofBytes data).byte i = data.getD i 0 := by
  rw [byte, ofBytes, Patchwork.byte_lay, Nat.zero_add]
  split
  · rfl
  · simp [Array.getD, show ¬ i < data.size by omega]

/-- A change of length keeps the bytes that are in the file before and after. -/
theorem byte_resize (f : File) (n i : Nat) :
    (f.resize n).byte i = if i < f.size ∧ i < n then f.byte i else 0 := by
  simp only [byte, resize, Patchwork.byte_below, Nat.lt_min]

theorem byte_clearPastEnd (f : File) (i : Nat) :
    f.clearPastEnd.byte i = if i < f.size then f.byte i else 0 := f.memory.byte_below f.size i

theorem byte_overlay (f : File) (offset : Nat) (data : Bytes) (i : Nat) :
    (f.overlay offset data).byte i =
      if offset ≤ i ∧ i < offset + data.size then data.getD (i - offset) 0 else f.byte i :=
  f.memory.byte_lay offset data i

@[simp] theorem byte_settle (f : File) (a b i : Nat) : (f.settle a b).byte i = f.byte i := rfl

/-- What is settled is durable, as far as the file reaches. -/
theorem stable_settle (f : File) (start stop i : Nat) :
    (f.settle start stop).stable.byte i =
      if start ≤ i ∧ i < stop ∧ i < f.size then f.byte i else f.stable.byte i := by
  simp only [settle, Patchwork.byte_splice, Nat.lt_min, byte]

/-- A crash leaves the durable bytes. -/
theorem byte_crash (f : File) (i : Nat) : f.crash.byte i = f.stable.byte i := rfl

/-- Clearing memory past the end is no change of the file. -/
theorem contents_clearPastEnd (f : File) : f.clearPastEnd.contents = f.contents := by
  simp only [contents, slice_eq_ofFn, byte_clearPastEnd, size_clearPastEnd]
  congr 1
  funext i
  simp [i.isLt]

end File
end MappedStorage
