import MappedStorage.System.FileSystem

/-!
Arrays of bytes, and what becomes of the bytes of a file. An array grows where bytes are laid over it
past its end (`overlaid`), and a window on it shows zeros there (`window`). While a file is mapped it
is made longer (`File.Extends`), stored to and flushed (`File.Flushed`); none of these takes a byte
back that is durable (`File.Durable`), unless it is stored to or cut off.
-/

namespace MappedStorage

/-- An array with some bytes laid over it. It gets longer where they reach past its end, with zeros
between the end and the first of them. -/
def overlaid (a : Bytes) (offset : Nat) (data : Bytes) : Bytes :=
  if data.size = 0 then a
  else Array.ofFn fun i : Fin (max a.size (offset + data.size)) =>
    if offset ≤ i ∧ i < offset + data.size then data.getD (i - offset) 0 else a.getD i 0

/-- What is seen of an array in a window, with zeros past its end. -/
def window (a : Bytes) (offset len : Nat) : Bytes :=
  Array.ofFn fun i : Fin len => a.getD (offset + i) 0

/-- Arrays of one size that agree at each offset are the same. -/
theorem bytes_ext {a b : Bytes} (size : a.size = b.size)
    (same : ∀ i < a.size, a.getD i 0 = b.getD i 0) : a = b := by
  refine Array.ext size fun i inside other => ?_
  have here := same i inside
  rwa [Array.getD, dif_pos inside, Array.getD, dif_pos other] at here

theorem getD_ofFn {n : Nat} (f : Fin n → UInt8) (i : Nat) :
    (Array.ofFn f).getD i 0 = if h : i < n then f ⟨i, h⟩ else 0 := by
  rw [Array.getD_eq_getD_getElem?, Array.getElem?_ofFn]
  split <;> rfl

theorem getD_eq_zero {a : Bytes} {i : Nat} (past : a.size ≤ i) : a.getD i 0 = 0 := by
  rw [Array.getD, dif_neg (Nat.not_lt.mpr past)]

theorem size_overlaid (a : Bytes) (offset : Nat) (data : Bytes) :
    (overlaid a offset data).size = if data.size = 0 then a.size else max a.size (offset + data.size) := by
  rw [overlaid]
  split <;> simp

theorem getD_overlaid (a : Bytes) (offset : Nat) (data : Bytes) (i : Nat) :
    (overlaid a offset data).getD i 0 =
      if offset ≤ i ∧ i < offset + data.size then data.getD (i - offset) 0 else a.getD i 0 := by
  rw [overlaid]
  split
  · rw [if_neg (by omega)]
  · rw [getD_ofFn]
    split
    · rfl
    · rw [if_neg (by omega), getD_eq_zero (by omega)]

@[simp] theorem size_window (a : Bytes) (offset len : Nat) : (window a offset len).size = len :=
  Array.size_ofFn

theorem getD_window (a : Bytes) (offset len i : Nat) :
    (window a offset len).getD i 0 = if i < len then a.getD (offset + i) 0 else 0 := by
  rw [window, getD_ofFn]
  split <;> rfl

/-- A window shows the bytes of the array that it reaches, and then zeros. -/
theorem window_eq_extract (a : Bytes) (offset len : Nat) :
    window a offset len = a.extract offset (offset + min len (a.size - offset)) ++
      Array.replicate (len - min len (a.size - offset)) 0 := by
  refine bytes_ext ?_ fun i inside => ?_
  · rw [size_window, Array.size_append, Array.size_extract, Array.size_replicate]
    omega
  · rw [size_window] at inside
    rw [getD_window, if_pos inside, Array.getD_eq_getD_getElem?, Array.getD_eq_getD_getElem?,
      Array.getElem?_append, Array.size_extract, Array.getElem?_extract]
    by_cases within : offset + i < a.size
    · rw [if_pos (by omega), if_pos (by omega)]
    · rw [if_neg (by omega), Array.getElem?_replicate, Array.getElem?_eq_none (by omega)]
      split <;> rfl

/-- A window within an array shows a part of it. -/
theorem window_of_le {a : Bytes} {offset len : Nat} (within : offset + len ≤ a.size) :
    window a offset len = a.extract offset (offset + len) := by
  rw [window_eq_extract, Nat.min_eq_left (by omega), Nat.sub_self, Array.replicate_zero,
    Array.append_empty]

namespace File

/-- The file made longer, within what a file can be, or left as it is. -/
def Extends (f f' : File) : Prop :=
  f' = f ∨ ∃ size, f.size < size ∧ size ≤ FileSystem.maxFile ∧ f' = f.resize size

/-- The file after a flush, which may have failed and may have cleared the memory past the end. -/
def Flushed (f f' : File) : Prop :=
  f' = f ∨ ∃ start stop, f' = f.settle start stop ∨ f' = (f.settle start stop).clearPastEnd

/-- The file has a byte at an offset, now and after a crash. -/
structure Durable (f : File) (i : Nat) (b : UInt8) : Prop where
  inside : i < f.size
  shown : f.byte i = b
  stable : f.stable.byte i = b

@[simp] theorem size_contents (f : File) : f.contents.size = f.size := f.memory.size_slice 0 f.size

theorem getD_slice (f : File) (start len i : Nat) :
    (f.slice start len).getD i 0 = if i < len then f.byte (start + i) else 0 := by
  rw [slice_eq_ofFn, getD_ofFn]
  split <;> rfl

theorem getD_contents (f : File) (i : Nat) :
    f.contents.getD i 0 = if i < f.size then f.byte i else 0 := by
  rw [contents, getD_slice, Nat.zero_add]

/-! ## Longer files -/

theorem Extends.refl (f : File) : f.Extends f := .inl rfl

theorem Extends.size_le {f f' : File} (longer : f.Extends f') : f.size ≤ f'.size := by
  obtain rfl | ⟨size, more, _, rfl⟩ := longer
  · exact Nat.le_refl _
  · exact Nat.le_of_lt more

/-- A longer file has the same bytes as far as it reached before, and zeros from there on. -/
theorem Extends.byte_eq {f f' : File} (longer : f.Extends f') {i : Nat} (inside : i < f'.size) :
    f'.byte i = if i < f.size then f.byte i else 0 := by
  obtain rfl | ⟨size, more, _, rfl⟩ := longer
  · rw [if_pos inside]
  · rw [size_resize] at inside
    simp only [byte_resize, inside, and_true]

/-- A longer file begins with all that it held before. -/
theorem Extends.slice_eq {f f' : File} (longer : f.Extends f') : f'.slice 0 f.size = f.contents := by
  rw [contents, slice_eq_ofFn, slice_eq_ofFn]
  congr 1
  funext i
  have inside : 0 + (i : Nat) < f.size := by omega
  rw [longer.byte_eq (Nat.lt_of_lt_of_le inside longer.size_le), if_pos inside]

/-- A longer file that is cut back holds what it held before. -/
theorem Extends.contents_cut {f f' : File} (longer : f.Extends f') :
    (if f.size < f'.size then f'.resize f.size else f').contents = f.contents := by
  have size_le := longer.size_le
  rw [← longer.slice_eq]
  split
  · rw [contents, size_resize, slice_eq_ofFn, slice_eq_ofFn]
    congr 1
    funext i
    rw [byte_resize, if_pos (by omega)]
  · rename_i short
    rw [contents, show f'.size = f.size by omega]

/-- Only a length that a file can have makes it longer. -/
theorem Extends.bounded {f f' : File} (longer : f.Extends f') (slack : f.size < f'.size) :
    f'.size ≤ FileSystem.maxFile := by
  obtain rfl | ⟨size, _, bound, rfl⟩ := longer
  · exact absurd slack (Nat.lt_irrefl _)
  · exact bound

theorem stable_resize (f : File) (n i : Nat) :
    (f.resize n).stable.byte i = if i < n then f.stable.byte i else 0 := f.stable.byte_below n i

/-! ## Flushed files -/

theorem Flushed.refl (f : File) : f.Flushed f := .inl rfl

theorem Flushed.size_eq {f f' : File} (flushed : f.Flushed f') : f'.size = f.size := by
  obtain rfl | ⟨start, stop, rfl | rfl⟩ := flushed <;> rfl

/-- A flush changes no byte of the file. -/
theorem Flushed.byte_eq {f f' : File} (flushed : f.Flushed f') {i : Nat} (inside : i < f.size) :
    f'.byte i = f.byte i := by
  obtain rfl | ⟨start, stop, rfl | rfl⟩ := flushed
  · rfl
  · rfl
  · rw [byte_clearPastEnd, size_settle, if_pos inside, byte_settle]

/-- After a flush a byte is durable if it was before. -/
theorem Flushed.stable_eq {f f' : File} (flushed : f.Flushed f') (i : Nat) :
    f'.stable.byte i = f.stable.byte i ∨ f'.stable.byte i = f.byte i := by
  obtain rfl | ⟨start, stop, same⟩ := flushed
  · exact .inl rfl
  · have settled : f'.stable.byte i = (f.settle start stop).stable.byte i := by
      rcases same with rfl | rfl <;> rfl
    rw [settled, stable_settle]
    split
    · exact .inr rfl
    · exact .inl rfl

/-! ## Durable bytes -/

namespace Durable

variable {f f' : File} {i : Nat} {b : UInt8}

theorem of_extends (kept : f.Durable i b) (longer : f.Extends f') : f'.Durable i b := by
  have inside : i < f'.size := Nat.lt_of_lt_of_le kept.inside longer.size_le
  refine ⟨inside, ?_, ?_⟩
  · rw [longer.byte_eq inside, if_pos kept.inside, kept.shown]
  · obtain rfl | ⟨size, more, _, rfl⟩ := longer
    · exact kept.stable
    · rw [stable_resize, if_pos (show i < size from inside), kept.stable]

theorem of_flushed (kept : f.Durable i b) (flushed : f.Flushed f') : f'.Durable i b := by
  refine ⟨by rw [flushed.size_eq]; exact kept.inside, ?_, ?_⟩
  · rw [flushed.byte_eq kept.inside, kept.shown]
  · rcases flushed.stable_eq i with same | same
    · rw [same, kept.stable]
    · rw [same, kept.shown]

/-- A file cut off after a byte keeps it. -/
theorem resize (kept : f.Durable i b) {size : Nat} (below : i < size) :
    (f.resize size).Durable i b := by
  refine ⟨below, ?_, ?_⟩
  · rw [byte_resize, if_pos ⟨kept.inside, below⟩, kept.shown]
  · rw [stable_resize, if_pos below, kept.stable]

/-- Bytes stored elsewhere leave a byte as it is. -/
theorem overlay (kept : f.Durable i b) {offset : Nat} {data : Bytes}
    (apart : ¬ (offset ≤ i ∧ i < offset + data.size)) : (f.overlay offset data).Durable i b :=
  ⟨kept.inside, by rw [byte_overlay, if_neg apart, kept.shown], kept.stable⟩

/-- What a flush reached is durable. -/
theorem settle {start stop : Nat} (inside : i < f.size) (low : start ≤ i) (high : i < stop)
    (flushed : f' = f.settle start stop ∨ f' = (f.settle start stop).clearPastEnd) :
    f'.Durable i (f.byte i) := by
  have some : f.Flushed f' := .inr ⟨start, stop, flushed⟩
  refine ⟨by rw [some.size_eq]; exact inside, some.byte_eq inside, ?_⟩
  have settled : f'.stable.byte i = (f.settle start stop).stable.byte i := by
    rcases flushed with rfl | rfl <;> rfl
  rw [settled, stable_settle, if_pos ⟨low, high, inside⟩]

end Durable
end File

/-- A crash leaves the length of every file. -/
theorem FileSystem.size_file_crash (fs : FileSystem) (id : FileId) :
    (fs.crash.file id).size = (fs.file id).size := by
  simp only [file, crash, Std.TreeMap.getD_eq_getD_getElem?, Std.TreeMap.getElem?_map]
  cases fs.files[id]? <;> rfl

end MappedStorage
