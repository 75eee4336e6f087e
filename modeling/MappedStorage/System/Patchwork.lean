/-!
Bytes at every offset: zeros with patches laid over them. Where a patch is laid, what lay there
before goes, so patches do not pile up. `Patchwork.byte` is the byte at an offset: `byte_below`,
`byte_splice` and `byte_lay` say what a change does to it. `Patchwork.slice` collects the bytes of
a range patch by patch (`slice_eq`).
-/

namespace MappedStorage

/-- Bytes in memory. -/
abbrev Bytes := Array UInt8

/-- Bytes for the offsets from `start` to `stop`: those of `data` after the first `skip`. -/
structure Patch where
  start : Nat
  stop : Nat
  data : Bytes
  skip : Nat

namespace Patch

/-- The byte of a patch at an offset, if it reaches there. -/
def byte? (p : Patch) (i : Nat) : Option UInt8 :=
  if p.start ≤ i ∧ i < p.stop then some (p.data.getD (p.skip + (i - p.start)) 0) else none

/-- What a patch has below a limit. -/
def below (p : Patch) (limit : Nat) : Patch := { p with stop := min p.stop limit }

/-- What a patch has from a limit on. -/
def above (p : Patch) (limit : Nat) : Patch :=
  { p with start := max p.start limit, skip := p.skip + (limit - p.start) }

/-- The same patch without most of the bytes that it does not show, if they are the greater part. -/
def trim (p : Patch) : Patch :=
  let len := p.stop - p.start
  if 2 * len < p.data.size then { p with data := p.data.extract p.skip (p.skip + len), skip := 0 }
  else p

/-- Copies so many bytes from an index of one array to an index of another. -/
def copy (source : Bytes) (i : Nat) (buffer : Bytes) (j : Nat) : Nat → Bytes
  | 0 => buffer
  | count + 1 => copy source (i + 1) (buffer.setIfInBounds j (source.getD i 0)) (j + 1) count

/-- Lays a patch over a buffer whose bytes begin at some offset. -/
def onto (p : Patch) (offset : Nat) (buffer : Bytes) : Bytes :=
  let first := max p.start offset
  let last := min p.stop (offset + buffer.size)
  copy p.data (p.skip + (first - p.start)) buffer (first - offset) (last - first)

theorem byte?_eq_some {p : Patch} {i : Nat} (low : p.start ≤ i) (high : i < p.stop) :
    p.byte? i = some (p.data.getD (p.skip + (i - p.start)) 0) := if_pos ⟨low, high⟩

theorem byte?_eq_none {p : Patch} {i : Nat} (h : i < p.start ∨ p.stop ≤ i) : p.byte? i = none :=
  if_neg (by omega)

theorem byte?_below (p : Patch) (limit i : Nat) :
    (p.below limit).byte? i = if i < limit then p.byte? i else none := by
  have stop : (p.below limit).stop = min p.stop limit := rfl
  split
  · by_cases reached : p.start ≤ i ∧ i < p.stop
    · rw [byte?_eq_some reached.1 reached.2]
      exact byte?_eq_some reached.1 (by omega)
    · rw [byte?_eq_none (p := p) (by omega)]
      exact byte?_eq_none (show i < p.start ∨ _ by omega)
  · exact byte?_eq_none (by omega)

theorem byte?_above (p : Patch) (limit i : Nat) :
    (p.above limit).byte? i = if limit ≤ i then p.byte? i else none := by
  have start : (p.above limit).start = max p.start limit := rfl
  have skip : (p.above limit).skip = p.skip + (limit - p.start) := rfl
  split
  · by_cases reached : p.start ≤ i ∧ i < p.stop
    · have index : p.skip + (limit - p.start) + (i - max p.start limit) = p.skip + (i - p.start) := by
        omega
      rw [byte?_eq_some reached.1 reached.2, ← index]
      exact byte?_eq_some (by omega) reached.2
    · rw [byte?_eq_none (p := p) (by omega)]
      exact byte?_eq_none (show _ ∨ p.stop ≤ i by omega)
  · exact byte?_eq_none (by omega)

@[simp] theorem byte?_trim (p : Patch) (i : Nat) : p.trim.byte? i = p.byte? i := by
  rw [trim]
  split
  · by_cases reached : p.start ≤ i ∧ i < p.stop
    · rw [byte?_eq_some reached.1 reached.2, byte?, if_pos reached]
      simp only [Array.getD_eq_getD_getElem?, Array.getElem?_extract, Nat.zero_add]
      congr 2
      split
      · rfl
      · rw [Array.getElem?_eq_none (by omega)]
    · rw [byte?_eq_none (p := p) (by omega)]
      exact byte?_eq_none (show i < p.start ∨ p.stop ≤ i by omega)
  · rfl

theorem size_copy (source : Bytes) (i : Nat) (buffer : Bytes) (j count : Nat) :
    (copy source i buffer j count).size = buffer.size := by
  induction count generalizing i buffer j with
  | zero => rfl
  | succ count ih => rw [copy, ih, Array.size_setIfInBounds]

theorem getElem?_copy (source : Bytes) (i : Nat) (buffer : Bytes) (j count k : Nat) :
    (copy source i buffer j count)[k]? =
      if j ≤ k ∧ k < j + count ∧ k < buffer.size then some (source.getD (i + (k - j)) 0)
      else buffer[k]? := by
  induction count generalizing i buffer j with
  | zero => rw [copy, if_neg (by omega)]
  | succ count ih =>
    rw [copy, ih, Array.size_setIfInBounds, Array.getElem?_setIfInBounds]
    by_cases same : j = k
    · subst same
      rw [if_neg (by omega), if_pos rfl]
      by_cases inside : j < buffer.size
      · rw [if_pos inside, if_pos (by omega), Nat.sub_self, Nat.add_zero]
      · rw [if_neg inside, if_neg (by omega), Array.getElem?_eq_none (by omega)]
    · by_cases here : j + 1 ≤ k ∧ k < j + 1 + count ∧ k < buffer.size
      · rw [if_pos here, if_pos (by omega), show i + 1 + (k - (j + 1)) = i + (k - j) by omega]
      · rw [if_neg here, if_neg same, if_neg (by omega)]

@[simp] theorem size_onto (p : Patch) (offset : Nat) (buffer : Bytes) :
    (p.onto offset buffer).size = buffer.size := size_copy ..

/-- Laid over a buffer, a patch shows where it reaches. -/
theorem getElem?_onto (p : Patch) (offset : Nat) (buffer : Bytes) {k : Nat}
    (h : k < buffer.size) :
    (p.onto offset buffer)[k]? = (p.byte? (offset + k)).or buffer[k]? := by
  rw [onto, getElem?_copy, byte?]
  by_cases reached : p.start ≤ offset + k ∧ offset + k < p.stop
  · rw [if_pos (by omega), if_pos reached, Option.some_or]
    congr 2
    omega
  · rw [if_neg (by omega), if_neg reached, Option.none_or]

end Patch

/-- Patches over zeros, those laid later first. -/
structure Patchwork where
  patches : List Patch

namespace Patchwork

/-- Zeros only. -/
def blank : Patchwork := ⟨[]⟩

/-- What the first patch that reaches an offset has there. -/
def byte? (w : Patchwork) (i : Nat) : Option UInt8 := w.patches.findSome? (·.byte? i)

/-- The byte at an offset. -/
def byte (w : Patchwork) (i : Nat) : UInt8 := (w.byte? i).getD 0

/-- Other patches in place of each one, those without bytes left out. -/
def change (w : Patchwork) (f : Patch → Patch) : Patchwork :=
  ⟨(w.patches.map fun p => (f p).trim).filter fun p => p.start < p.stop⟩

/-- What lies below a limit, and zeros from there on. -/
def below (w : Patchwork) (limit : Nat) : Patchwork := w.change (·.below limit)

/-- What lies from a limit on, and zeros below. -/
def above (w : Patchwork) (limit : Nat) : Patchwork := w.change (·.above limit)

/-- The bytes of another patchwork from `start` to `stop`, and those that are there elsewhere. -/
def splice (w other : Patchwork) (start stop : Nat) : Patchwork :=
  ⟨((other.above start).below stop).patches ++ ((w.below start).patches ++ (w.above stop).patches)⟩

/-- Lays bytes over what is there, from an offset on. -/
def lay (w : Patchwork) (offset : Nat) (data : Bytes) : Patchwork :=
  let stop := offset + data.size
  w.splice ⟨[⟨offset, stop, data, 0⟩]⟩ offset stop

/-- The bytes of a range. -/
def slice (w : Patchwork) (start len : Nat) : Bytes :=
  w.patches.foldr (fun p buffer => p.onto start buffer) (Array.replicate len 0)

@[simp] theorem byte_blank (i : Nat) : blank.byte i = 0 := rfl

theorem byte?_cons (p : Patch) (rest : List Patch) (i : Nat) :
    byte? ⟨p :: rest⟩ i = (p.byte? i).or (byte? ⟨rest⟩ i) := by
  simp only [byte?, List.findSome?_cons]
  cases p.byte? i <;> rfl

/-- A change that keeps or hides the byte at an offset does so in all patches. -/
theorem byte?_change (w : Patchwork) (f : Patch → Patch) (kept : Prop) [Decidable kept] (i : Nat)
    (h : ∀ p, (f p).byte? i = if kept then p.byte? i else none) :
    (w.change f).byte? i = if kept then w.byte? i else none := by
  obtain ⟨patches⟩ := w
  rw [change]
  induction patches with
  | nil => exact (ite_self _).symm
  | cons p rest ih =>
    rw [byte?_cons, List.map_cons]
    have changed : (f p).trim.byte? i = if kept then p.byte? i else none := by
      rw [Patch.byte?_trim, h]
    by_cases shown : (f p).trim.start < (f p).trim.stop
    · rw [List.filter_cons_of_pos (by simpa using shown), byte?_cons, ih, changed]
      split <;> rfl
    · have hidden : (f p).trim.byte? i = none := Patch.byte?_eq_none (by omega)
      rw [List.filter_cons_of_neg (by simpa using shown), ih]
      rw [changed] at hidden
      split
      · rename_i here
        rw [if_pos here] at hidden
        rw [hidden, Option.none_or]
      · rfl

theorem byte?_below (w : Patchwork) (limit i : Nat) :
    (w.below limit).byte? i = if i < limit then w.byte? i else none :=
  w.byte?_change _ _ i fun p => p.byte?_below limit i

theorem byte?_above (w : Patchwork) (limit i : Nat) :
    (w.above limit).byte? i = if limit ≤ i then w.byte? i else none :=
  w.byte?_change _ _ i fun p => p.byte?_above limit i

theorem byte?_splice (w other : Patchwork) (start stop i : Nat) :
    (w.splice other start stop).byte? i =
      if start ≤ i ∧ i < stop then other.byte? i else w.byte? i := by
  have inner := (other.above start).byte?_below stop i
  have low := w.byte?_below start i
  have high := w.byte?_above stop i
  rw [other.byte?_above] at inner
  rw [byte?] at inner low high
  rw [byte?, splice, List.findSome?_append, List.findSome?_append, inner, low, high]
  by_cases within : start ≤ i ∧ i < stop
  · rw [if_pos within, if_pos within.2, if_pos within.1, if_neg (by omega), if_neg (by omega),
      Option.or_none, Option.or_none]
  · rw [if_neg within]
    by_cases before : i < start
    · rw [if_pos before, if_neg (c := start ≤ i) (by omega), ite_self, Option.none_or]
      split
      · exact Option.or_self
      · exact Option.or_none
    · rw [if_neg before, if_neg (c := i < stop) (by omega), if_pos (by omega), Option.none_or,
        Option.none_or]

/-- Zeros lie from a limit on, and nothing changes below it. -/
theorem byte_below (w : Patchwork) (limit i : Nat) :
    (w.below limit).byte i = if i < limit then w.byte i else 0 := by
  rw [byte, byte?_below]
  split <;> rfl

/-- Spliced bytes are those of the other patchwork in the range, and nothing changes elsewhere. -/
theorem byte_splice (w other : Patchwork) (start stop i : Nat) :
    (w.splice other start stop).byte i =
      if start ≤ i ∧ i < stop then other.byte i else w.byte i := by
  rw [byte, byte?_splice]
  split <;> rfl

/-- Bytes that are laid show where they reach, and nothing changes elsewhere. -/
theorem byte_lay (w : Patchwork) (offset : Nat) (data : Bytes) (i : Nat) :
    (w.lay offset data).byte i =
      if offset ≤ i ∧ i < offset + data.size then data.getD (i - offset) 0 else w.byte i := by
  rw [lay, byte_splice]
  split
  · rename_i within
    rw [byte, byte?_cons, Patch.byte?_eq_some within.1 within.2, Nat.zero_add]
    rfl
  · rfl

@[simp] theorem size_slice (w : Patchwork) (start len : Nat) : (w.slice start len).size = len := by
  obtain ⟨patches⟩ := w
  induction patches with
  | nil => simp [slice]
  | cons p rest ih => simpa [slice] using ih

theorem getElem?_slice (w : Patchwork) (start len : Nat) {k : Nat} (h : k < len) :
    (w.slice start len)[k]? = some (w.byte (start + k)) := by
  obtain ⟨patches⟩ := w
  induction patches with
  | nil => simp [slice, byte, byte?, h]
  | cons p rest ih =>
    have inside : k < (slice ⟨rest⟩ start len).size := by rwa [size_slice]
    change (p.onto start (slice ⟨rest⟩ start len))[k]? = _
    rw [Patch.getElem?_onto _ _ _ inside, ih, byte, byte, byte?_cons]
    cases p.byte? (start + k) <;> rfl

/-- A slice has the bytes of its range. -/
theorem slice_eq (w : Patchwork) (start len : Nat) :
    w.slice start len = Array.ofFn fun i : Fin len => w.byte (start + i) := by
  apply Array.ext_getElem?
  intro k
  by_cases inside : k < len
  · rw [getElem?_slice _ _ _ inside, Array.getElem?_ofFn, dif_pos inside]
  · rw [Array.getElem?_eq_none (by simpa using inside),
      Array.getElem?_eq_none (by simpa using inside)]

end Patchwork
end MappedStorage
