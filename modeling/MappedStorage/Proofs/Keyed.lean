import Mathlib.Data.List.Dedup
import Mathlib.Data.List.Perm.Basic
import MappedStorage.Keyed

/-!
Counting the values of a table, and gathering what they hold. A change under one key takes the old
value out of the count and the new one in; all other values are counted in the table without the key
(`Keyed.count_of_find?`). What the values hold is gathered likewise (`Keyed.gather_of_find?`).
-/

namespace MappedStorage.Keyed

variable {κ α : Type} [DecidableEq κ] {t : Keyed κ α} {key : κ} {value : α}

/-- How many values satisfy a condition. -/
def count (t : Keyed κ α) (P : α → Bool) : Nat := t.entries.countP fun e => P e.2

theorem mem_entries_iff : (key, value) ∈ t.entries ↔ t.find? key = some value := by
  obtain ⟨entries, nodup⟩ := t
  rw [find?]
  induction entries with
  | nil => simp
  | cons e rest ih =>
    rw [List.map_cons, List.nodup_cons] at nodup
    rw [List.mem_cons, List.find?_cons]
    by_cases here : e.1 = key
    · have absent : (key, value) ∉ rest := fun member =>
        nodup.1 (here ▸ List.mem_map_of_mem (f := (·.1)) member)
      obtain ⟨k, v⟩ := e
      obtain rfl : k = key := here
      simp [absent, eq_comm (a := value)]
    · have other : (key, value) ≠ e := fun same => here (same ▸ rfl)
      simpa [here, other] using ih nodup.2

theorem mem_keys_iff : key ∈ t.entries.map (·.1) ↔ t.find? key ≠ none := by
  rw [List.mem_map, Option.ne_none_iff_exists']
  refine ⟨?_, fun ⟨value, found⟩ => ⟨(key, value), mem_entries_iff.mpr found, rfl⟩⟩
  rintro ⟨e, member, rfl⟩
  exact ⟨e.2, mem_entries_iff.mp member⟩

theorem perm_of_find? (found : t.find? key = some value) :
    t.entries.Perm ((key, value) :: (t.erase key).entries) := by
  have member := mem_entries_iff.mpr found
  have nodup : t.entries.Nodup := t.nodup.of_map _
  have rest : ((key, value) :: (t.erase key).entries).Nodup := by
    refine List.nodup_cons.mpr ⟨fun again => ?_, (t.erase key).nodup.of_map _⟩
    simp [erase] at again
  refine (List.perm_ext_iff_of_nodup nodup rest).mpr fun e => ?_
  rw [List.mem_cons, erase, List.mem_filter, decide_eq_true_iff]
  refine ⟨fun there => ?_, ?_⟩
  · by_cases here : e.1 = key
    · left
      have same := mem_entries_iff.mp (show (key, e.2) ∈ t.entries by rw [← here]; exact there)
      rw [found] at same
      rw [← here, Option.some.inj same]
    · exact .inr ⟨there, here⟩
  · rintro (rfl | ⟨there, _⟩)
    · exact member
    · exact there

/-- Tables in which the same is found have the same entries, in some order. -/
theorem perm_of_find?_eq {t' : Keyed κ α} (same : ∀ key, t.find? key = t'.find? key) :
    t.entries.Perm t'.entries := by
  refine (List.perm_ext_iff_of_nodup (t.nodup.of_map _) (t'.nodup.of_map _)).mpr fun e => ?_
  have entry (t : Keyed κ α) : e ∈ t.entries ↔ t.find? e.1 = some e.2 := mem_entries_iff
  rw [entry, entry, same]

theorem entries_erase_of_none (absent : t.find? key = none) : (t.erase key).entries = t.entries := by
  refine List.filter_eq_self.mpr fun e member => ?_
  refine decide_eq_true fun here => ?_
  have found := mem_entries_iff.mp (show (key, e.2) ∈ t.entries by rw [← here]; exact member)
  rw [absent] at found
  cases found

theorem erase_modify (t : Keyed κ α) (key : κ) (f : α → α) :
    ((t.modify key f).erase key).entries = (t.erase key).entries := by
  obtain ⟨entries, nodup⟩ := t
  simp only [erase, modify]
  clear nodup
  induction entries with
  | nil => rfl
  | cons e rest ih =>
    rw [List.map_cons]
    by_cases here : e.1 = key
    · rw [if_pos here, List.filter_cons_of_neg (by simpa using here),
        List.filter_cons_of_neg (by simpa using here), ih]
    · rw [if_neg here, List.filter_cons_of_pos (by simpa using here),
        List.filter_cons_of_pos (by simpa using here), ih]

/-- A value that takes its own place. -/
theorem modify_of_find? (found : t.find? key = some value) : (t.modify key fun _ => value) = t := by
  have same : (t.entries.map fun e => if e.1 = key then (e.1, value) else e) = t.entries := by
    refine (List.map_congr_left fun e member => ?_).trans t.entries.map_id
    split
    · rename_i here
      have there : t.find? e.1 = some e.2 := mem_entries_iff.mp member
      rw [here, found] at there
      rw [Option.some.inj there]
      rfl
    · rfl
  simp only [modify, same]

/-! ## Counts -/

variable {P : α → Bool}

theorem count_insert (t : Keyed κ α) (key : κ) (value : α) (P : α → Bool) :
    (t.insert key value).count P = (t.erase key).count P + if P value then 1 else 0 :=
  List.countP_cons

theorem count_of_find? (found : t.find? key = some value) (P : α → Bool) :
    t.count P = (t.erase key).count P + if P value then 1 else 0 := by
  rw [count, (perm_of_find? found).countP_eq, List.countP_cons]
  rfl

theorem count_of_none (absent : t.find? key = none) (P : α → Bool) :
    t.count P = (t.erase key).count P := by
  rw [count, count, entries_erase_of_none absent]

theorem count_modify (found : t.find? key = some value) (f : α → α) (P : α → Bool) :
    (t.modify key f).count P = (t.erase key).count P + if P (f value) then 1 else 0 := by
  have changed : (t.modify key f).find? key = some (f value) := by
    rw [find?_modify, if_pos rfl, found]
    rfl
  rw [count_of_find? changed, count, count, erase_modify]

theorem count_pos_iff : 0 < t.count P ↔ ∃ key value, t.find? key = some value ∧ P value = true := by
  rw [count, List.countP_pos_iff]
  refine ⟨fun ⟨e, member, holds⟩ => ⟨e.1, e.2, mem_entries_iff.mp member, holds⟩, ?_⟩
  rintro ⟨key, value, found, holds⟩
  exact ⟨(key, value), mem_entries_iff.mpr found, holds⟩

theorem one_lt_count {key' : κ} {value' : α} (different : key' ≠ key)
    (found : t.find? key = some value) (found' : t.find? key' = some value')
    (holds : P value = true) (holds' : P value' = true) : 1 < t.count P := by
  have rest : 0 < (t.erase key).count P :=
    count_pos_iff.mpr ⟨key', value', (find?_erase ..).trans ((if_neg different).trans found'), holds'⟩
  rw [count_of_find? found, if_pos holds]
  exact Nat.succ_lt_succ rest

theorem count_le_one (key : κ)
    (only : ∀ key' value', t.find? key' = some value' → P value' = true → key' = key) :
    t.count P ≤ 1 := by
  have rest : (t.erase key).count P = 0 := by
    refine Nat.eq_zero_of_not_pos fun some => ?_
    obtain ⟨key', value', found, holds⟩ := count_pos_iff.mp some
    rw [find?_erase] at found
    split at found
    · cases found
    · rename_i different
      exact different (only key' value' found holds)
  cases found : t.find? key with
  | none => rw [count_of_none found, rest]; exact Nat.zero_le 1
  | some value =>
    rw [count_of_find? found, rest, Nat.zero_add]
    split
    · exact Nat.le_refl 1
    · exact Nat.zero_le 1

/-- A table whose values are among those that another table leads to. -/
theorem count_of_bind {β : Type} {u : Keyed κ β} {g : α → Option β}
    (same : ∀ key, u.find? key = (t.find? key).bind g) (P : β → Bool) :
    u.count P = t.count fun a => (g a).any P := by
  have distinct : t.entries.Pairwise fun e e' => e.1 ≠ e'.1 := List.pairwise_map.mp t.nodup
  have nodup : (t.entries.filterMap fun e => (g e.2).map (Prod.mk e.1)).Nodup := by
    refine distinct.filterMap _ fun e e' different b here b' there => ?_
    obtain ⟨_, -, rfl⟩ := Option.map_eq_some_iff.mp here
    obtain ⟨_, -, rfl⟩ := Option.map_eq_some_iff.mp there
    exact fun equal => different (Prod.mk.inj equal).1
  have listed : u.entries.Perm (t.entries.filterMap fun e => (g e.2).map (Prod.mk e.1)) := by
    refine (List.perm_ext_iff_of_nodup (u.nodup.of_map _) nodup).mpr fun (key, b) => ?_
    rw [mem_entries_iff, same, List.mem_filterMap, Option.bind_eq_some_iff]
    constructor
    · rintro ⟨a, found, leads⟩
      exact ⟨(key, a), mem_entries_iff.mpr found, by rw [leads]; rfl⟩
    · rintro ⟨⟨key', a⟩, member, leads⟩
      obtain ⟨b', leads, equal⟩ := Option.map_eq_some_iff.mp leads
      cases equal
      exact ⟨a, mem_entries_iff.mp member, leads⟩
  rw [count, listed.countP_eq, List.countP_filterMap, count]
  congr 1
  funext e
  cases g e.2 <;> rfl

/-! ## What the values hold -/

section

variable {β : Type} {f : α → List β}

/-- All that the values hold. -/
def gather (t : Keyed κ α) (f : α → List β) : List β := t.entries.flatMap fun e => f e.2

omit [DecidableEq κ] in
@[simp] theorem gather_empty (f : α → List β) : (∅ : Keyed κ α).gather f = [] := rfl

theorem mem_gather_iff {b : β} :
    b ∈ t.gather f ↔ ∃ key value, t.find? key = some value ∧ b ∈ f value := by
  rw [gather, List.mem_flatMap]
  refine ⟨fun ⟨e, member, holds⟩ => ⟨e.1, e.2, mem_entries_iff.mp member, holds⟩, ?_⟩
  rintro ⟨key, value, found, holds⟩
  exact ⟨(key, value), mem_entries_iff.mpr found, holds⟩

theorem gather_insert (t : Keyed κ α) (key : κ) (value : α) (f : α → List β) :
    (t.insert key value).gather f = f value ++ (t.erase key).gather f :=
  List.flatMap_cons

theorem gather_of_find? (found : t.find? key = some value) (f : α → List β) :
    (t.gather f).Perm (f value ++ (t.erase key).gather f) :=
  (perm_of_find? found).flatMap_right _

theorem gather_of_none (absent : t.find? key = none) (f : α → List β) :
    (t.erase key).gather f = t.gather f := by
  rw [gather, gather, entries_erase_of_none absent]

theorem gather_modify (found : t.find? key = some value) (g : α → α) (f : α → List β) :
    ((t.modify key g).gather f).Perm (f (g value) ++ (t.erase key).gather f) := by
  have changed : (t.modify key g).find? key = some (g value) := by
    rw [find?_modify, if_pos rfl, found]
    rfl
  have gathered := gather_of_find? changed f
  rwa [gather, gather, erase_modify] at gathered

end

end MappedStorage.Keyed
