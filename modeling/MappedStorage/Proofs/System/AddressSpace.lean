import MappedStorage.System.Platform

/-!
Mappings lie apart. The ranges in use come highest first and none reaches into another or into the
program (`AddressSpace.Laid`); the address that is found for a mapping leaves them so (`Laid.place`).
-/

namespace MappedStorage

/-- The first range lies above the second. -/
def Span.Above (a b : Span) : Prop := b.stop ≤ a.start

/-- No address is in both ranges. -/
def Span.Apart (a b : Span) : Prop := a.Above b ∨ b.Above a

theorem Span.Apart.symm {a b : Span} (apart : a.Apart b) : b.Apart a := Or.symm apart

namespace AddressSpace

/-- Ranges of whole pages that lie apart, highest first, and leave the program alone. -/
structure Laid (used : List Span) : Prop where
  nonempty : ∀ r ∈ used, r.start < r.stop
  ordered : used.Pairwise Span.Above
  program : ∀ r ∈ used, r.Apart program
  pages : ∀ r ∈ used, r.start % page = 0

variable {used : List Span} {r : Span} {size ceiling address len : Nat}

theorem Laid.nil : Laid [] := ⟨by simp, .nil, by simp, by simp⟩

theorem Laid.sublist {fewer : List Span} (laid : Laid used) (sub : fewer.Sublist used) : Laid fewer :=
  ⟨fun r h => laid.nonempty r (sub.subset h), laid.ordered.sublist sub,
    fun r h => laid.program r (sub.subset h), fun r h => laid.pages r (sub.subset h)⟩

/-- A range that is apart from all others has its place among them. -/
theorem ordered_insert (nonempty : ∀ s ∈ r :: used, s.start < s.stop) (ordered : used.Pairwise Span.Above)
    (apart : ∀ s ∈ used, r.Apart s) : (insert r used).Pairwise Span.Above := by
  induction used with
  | nil => exact List.pairwise_singleton ..
  | cons s rest ih =>
    obtain ⟨below, ordered⟩ := List.pairwise_cons.mp ordered
    have r_nonempty := nonempty r (by simp)
    have s_nonempty := nonempty s (by simp)
    have here := apart s List.mem_cons_self
    unfold insert
    by_cases high : s.start ≤ r.start
    · rw [if_pos high]
      have above : r.Above s := by
        refine here.resolve_right fun under => ?_
        unfold Span.Above at under
        omega
      refine List.pairwise_cons.mpr ⟨fun t member => ?_, List.pairwise_cons.mpr ⟨below, ordered⟩⟩
      rcases List.mem_cons.mp member with rfl | member
      · exact above
      · have further := below t member
        unfold Span.Above at *
        omega
    · rw [if_neg high]
      have under : s.Above r := by
        refine here.resolve_left fun above => ?_
        unfold Span.Above at above
        omega
      refine List.pairwise_cons.mpr ⟨fun t member => ?_, ih (fun t h => nonempty t (by grind)) ordered
        fun t h => apart t (List.mem_cons_of_mem _ h)⟩
      rcases mem_insert.mp member with rfl | member
      · exact under
      · exact below t member

/-- The room that is found is below the ceiling if all ranges are. -/
theorem findRoom_le (ordered : used.Pairwise Span.Above) (nonempty : ∀ s ∈ used, s.start < s.stop)
    (low : ∀ s ∈ used, s.start ≤ ceiling) (found : findRoom size ceiling used = some address) :
    address + size ≤ ceiling := by
  induction used generalizing ceiling with
  | nil =>
    unfold findRoom at found
    split at found
    · cases found
      omega
    · cases found
  | cons s rest ih =>
    obtain ⟨below, ordered⟩ := List.pairwise_cons.mp ordered
    unfold findRoom at found
    split at found
    · cases found
      omega
    · have within := low s List.mem_cons_self
      refine Nat.le_trans (ih ordered (fun t h => nonempty t (List.mem_cons_of_mem _ h))
        (fun t h => ?_) found) within
      have under := below t h
      have t_nonempty := nonempty t (List.mem_cons_of_mem _ h)
      unfold Span.Above at under
      omega

/-- The room that is found is free. -/
theorem findRoom_apart (ordered : used.Pairwise Span.Above) (nonempty : ∀ s ∈ used, s.start < s.stop)
    (found : findRoom size ceiling used = some address) :
    ∀ s ∈ used, (⟨address, address + size⟩ : Span).Apart s := by
  induction used generalizing ceiling with
  | nil => simp
  | cons s rest ih =>
    obtain ⟨below, rest_ordered⟩ := List.pairwise_cons.mp ordered
    have s_nonempty := nonempty s List.mem_cons_self
    have rest_nonempty (t : Span) (h : t ∈ rest) := nonempty t (List.mem_cons_of_mem _ h)
    intro t member
    unfold findRoom at found
    split at found
    · rename_i room
      cases found
      left
      unfold Span.Above
      rcases List.mem_cons.mp member with rfl | member
      · show t.stop ≤ ceiling - size
        omega
      · have under := below t member
        unfold Span.Above at under
        show t.stop ≤ ceiling - size
        omega
    · rcases List.mem_cons.mp member with rfl | member
      · right
        refine findRoom_le rest_ordered rest_nonempty (fun u h => ?_) found
        have under := below u h
        have u_nonempty := rest_nonempty u h
        unfold Span.Above at under
        omega
      · exact ih rest_ordered rest_nonempty found t member

theorem roomFor_pos (positive : 0 < len) : 0 < roomFor len :=
  Nat.lt_of_lt_of_le positive (le_roomFor len)

/-- The ranges in use with that of the program among them. -/
theorem Laid.with_program (laid : Laid used) :
    (insert AddressSpace.program used).Pairwise Span.Above ∧
      ∀ s ∈ insert AddressSpace.program used, s.start < s.stop := by
  have nonempty (s : Span) (member : s ∈ AddressSpace.program :: used) : s.start < s.stop := by
    rcases List.mem_cons.mp member with rfl | member
    · decide
    · exact laid.nonempty s member
  refine ⟨ordered_insert nonempty laid.ordered fun s h => (laid.program s h).symm, fun s member => ?_⟩
  exact nonempty s (List.mem_cons.mpr (mem_insert.mp member))

/-- A mapping is placed where nothing is. -/
theorem place_apart (laid : Laid used) (placed : place len used = some address) :
    ∀ s, s = program ∨ s ∈ used → (⟨address, address + roomFor len⟩ : Span).Apart s := by
  obtain ⟨ordered, nonempty⟩ := laid.with_program
  intro s member
  have inside := mem_insert.mpr member
  simp only [place] at placed
  split at placed
  · rename_i base found
    cases placed
    split at found
    · -- The start is moved up to a huge page, within the room that was found for it.
      have room := findRoom_apart ordered nonempty found s inside
      have low := Nat.lt_div_mul_add (b := hugePage) (a := base) (by decide)
      have high := Nat.div_mul_le_self base hugePage
      unfold Span.Apart Span.Above at room ⊢
      dsimp only at room ⊢
      rw [Nat.succ_mul]
      generalize base / hugePage * hugePage = start at low high ⊢
      omega
    · cases found
  · exact findRoom_apart ordered nonempty placed s inside

/-- A mapping that is placed leaves the ranges apart. -/
theorem Laid.place (laid : Laid used) (positive : 0 < len)
    (placed : AddressSpace.place len used = some address) :
    Laid (insert ⟨address, address + roomFor len⟩ used) := by
  have apart := place_apart laid placed
  have room := roomFor_pos positive
  have every {P : Span → Prop} (new : P ⟨address, address + roomFor len⟩) (old : ∀ s ∈ used, P s) :
      ∀ s ∈ insert ⟨address, address + roomFor len⟩ used, P s := by
    intro s member
    rcases mem_insert.mp member with rfl | member
    · exact new
    · exact old s member
  refine ⟨every (Nat.lt_add_of_pos_right room) laid.nonempty, ?_,
    every (apart _ (.inl rfl)) laid.program, every (place_mod_page laid.pages placed) laid.pages⟩
  refine ordered_insert (fun s member => ?_) laid.ordered fun s h => apart s (.inr h)
  rcases List.mem_cons.mp member with rfl | member
  · exact Nat.lt_add_of_pos_right room
  · exact laid.nonempty s member

end AddressSpace
end MappedStorage
