import MappedStorage.Flushing

/-!
Where mappings lie. They take whole pages, as high as there is room, and the program itself parts
the addresses in two. `AddressSpace.place` finds the address of a mapping beside those in use, or
none: then memory is short. An address is always the start of a page (`place_mod_page`).
-/

namespace MappedStorage.AddressSpace

/-- The size of a page. -/
def page : Nat := 4096

/-- The size of a huge page. -/
def hugePage : Nat := 0x200000

/-- The lowest address that a mapping can have. -/
def bottom : Nat := 0x1000

/-- The end of the addresses at which mappings can lie. -/
def top : Nat := 0x7F7FFFFFF000

/-- The addresses of the program. -/
def program : Span := ⟨0x55D555554000, 0x55D595554000⟩

/-- The room that so many bytes take in pages. -/
def roomFor (len : Nat) : Nat := (len + (page - 1)) / page * page

/-- The highest address below a ceiling with so much free room above it. The ranges in use come
highest first. -/
def findRoom (size ceiling : Nat) : List Span → Option Nat
  | [] => if bottom + size ≤ ceiling then some (ceiling - size) else none
  | used :: rest =>
    if used.stop + size ≤ ceiling then some (ceiling - size) else findRoom size used.start rest

/-- Adds a range to those in use, keeping the order. -/
def insert (r : Span) : List Span → List Span
  | [] => [r]
  | used :: rest =>
    if used.start ≤ r.start then r :: used :: rest else used :: insert r rest

/-- The address for a mapping of so many bytes beside other mappings, highest first. One of at
least a huge page starts at a huge page if there is room to move it there. -/
def place (len : Nat) (others : List Span) : Option Nat :=
  let used := insert program others
  let size := roomFor len
  match if hugePage ≤ size then findRoom (size + hugePage) top used else none with
  | some address => some ((address / hugePage + 1) * hugePage)
  | none => findRoom size top used

theorem le_roomFor (len : Nat) : len ≤ roomFor len := by
  unfold roomFor page
  omega

theorem roomFor_mod_page (len : Nat) : roomFor len % page = 0 := Nat.mul_mod_left ..

theorem mem_insert {r s : Span} {used : List Span} : s ∈ insert r used ↔ s = r ∨ s ∈ used := by
  induction used with
  | nil => simp [insert]
  | cons t rest ih =>
    simp only [insert]
    split <;> grind

/-- The room that is found starts at a page if the ceiling and the ranges in use do. -/
theorem findRoom_mod_page {size ceiling address : Nat} {used : List Span}
    (whole : size % page = 0) (atPage : ceiling % page = 0)
    (pages : ∀ r ∈ used, r.start % page = 0) (found : findRoom size ceiling used = some address) :
    address % page = 0 := by
  induction used generalizing ceiling with
  | nil =>
    simp only [findRoom, page] at *
    split at found <;> grind
  | cons r rest ih =>
    simp only [findRoom] at found
    split at found
    · simp only [page] at *
      grind
    · exact ih (pages r List.mem_cons_self) (fun s h => pages s (List.mem_cons_of_mem _ h)) found

/-- Mappings start at pages. -/
theorem place_mod_page {len address : Nat} {others : List Span}
    (pages : ∀ r ∈ others, r.start % page = 0) (found : place len others = some address) :
    address % page = 0 := by
  simp only [place] at found
  split at found
  · cases found
    have whole : page ∣ hugePage := by decide
    exact Nat.mod_eq_zero_of_dvd (Nat.dvd_mul_left_of_dvd whole _)
  · refine findRoom_mod_page (roomFor_mod_page len) (by decide) (fun r h => ?_) found
    rcases mem_insert.mp h with rfl | h
    · decide
    · exact pages r h

end MappedStorage.AddressSpace
