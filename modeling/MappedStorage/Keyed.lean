/-!
Finite tables. A table has at most one value under each key. `Keyed.find?_insert`,
`Keyed.find?_erase` and `Keyed.find?_modify` say what is found after a change; the order of the
entries shows nowhere.
-/

namespace MappedStorage

/-- Values under distinct keys. -/
structure Keyed (κ α : Type) where
  entries : List (κ × α)
  nodup : (entries.map (·.1)).Nodup
  deriving DecidableEq

namespace Keyed

variable {κ α : Type}

/-- No values. -/
def empty : Keyed κ α := ⟨[], List.nodup_nil⟩

instance : EmptyCollection (Keyed κ α) := ⟨empty⟩
instance : Inhabited (Keyed κ α) := ⟨empty⟩

/-- How many keys have a value. -/
def size (t : Keyed κ α) : Nat := t.entries.length

def isEmpty (t : Keyed κ α) : Bool := t.size == 0

variable [DecidableEq κ]

/-- The value under a key. -/
def find? (t : Keyed κ α) (key : κ) : Option α :=
  (t.entries.find? (·.1 = key)).map (·.2)

/-- The table without the value under a key. -/
def erase (t : Keyed κ α) (key : κ) : Keyed κ α where
  entries := t.entries.filter (·.1 ≠ key)
  nodup := t.nodup.sublist (List.filter_sublist.map _)

/-- The table with a value under a key. -/
def insert (t : Keyed κ α) (key : κ) (value : α) : Keyed κ α where
  entries := (key, value) :: (t.erase key).entries
  nodup := by
    rw [List.map_cons, List.nodup_cons]
    refine ⟨fun h => ?_, (t.erase key).nodup⟩
    obtain ⟨entry, member, same⟩ := List.mem_map.mp h
    simp [erase] at member
    exact member.2 same

/-- The table with the value under a key changed, if there is one. -/
def modify (t : Keyed κ α) (key : κ) (f : α → α) : Keyed κ α where
  entries := t.entries.map fun e => if e.1 = key then (e.1, f e.2) else e
  nodup := by
    have keys : ((·.1) ∘ fun e : κ × α => if e.1 = key then (e.1, f e.2) else e) = (·.1) := by
      funext e
      simp only [Function.comp]
      split <;> rfl
    rw [List.map_map, keys]
    exact t.nodup

@[simp] theorem find?_empty (key : κ) : (∅ : Keyed κ α).find? key = none := rfl

theorem find?_erase (t : Keyed κ α) (key other : κ) :
    (t.erase key).find? other = if other = key then none else t.find? other := by
  simp only [find?, erase, List.find?_filter]
  split
  · rename_i same
    subst same
    simp
  · rename_i different
    congr 2
    funext e
    by_cases h : e.1 = other <;> simp_all

theorem find?_insert (t : Keyed κ α) (key other : κ) (value : α) :
    (t.insert key value).find? other = if other = key then some value else t.find? other := by
  have rest := find?_erase t key other
  simp only [find?, insert, List.find?_cons] at *
  by_cases same : key = other
  · simp [same]
  · simp [same, Ne.symm same, rest]

theorem find?_modify (t : Keyed κ α) (key other : κ) (f : α → α) :
    (t.modify key f).find? other =
      if other = key then (t.find? other).map f else t.find? other := by
  obtain ⟨entries, nodup⟩ := t
  simp only [find?, modify]
  clear nodup
  induction entries with
  | nil => simp
  | cons e rest ih =>
    simp only [List.map_cons, List.find?_cons]
    by_cases same : other = key <;> by_cases here : e.1 = key <;> by_cases sought : e.1 = other <;>
      simp_all

/-- A table is empty when nothing is found in it. -/
theorem isEmpty_iff (t : Keyed κ α) : t.isEmpty = true ↔ ∀ key, t.find? key = none := by
  obtain ⟨entries, nodup⟩ := t
  cases entries with
  | nil => simp [isEmpty, size, find?]
  | cons e rest =>
    simp only [isEmpty, size, List.length_cons, find?]
    constructor
    · simp
    · intro h
      simpa using h e.1

end Keyed
end MappedStorage
