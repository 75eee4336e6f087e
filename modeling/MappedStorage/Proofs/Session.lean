import MappedStorage.Proofs.Keyed
import MappedStorage.Session

/-!
Which object of a session has a name after the session has changed, and which objects are in use then.
-/

namespace MappedStorage

theorem Keyed.erase_modify_eq {κ α : Type} [DecidableEq κ] (t : Keyed κ α) (key : κ) (f : α → α) :
    (t.modify key f).erase key = t.erase key := by
  have same := erase_modify t key f
  generalize (t.modify key f).erase key = t₁ at same ⊢
  generalize t.erase key = t₂ at same ⊢
  cases t₁
  cases t₂
  cases same
  rfl

namespace Session

variable {α σ : Type} {s : Session α σ} {name other : String} {object : α}

theorem find?_update (found : s.find? name = some object) (changed : α) :
    (s.update name changed).find? other = if other = name then some changed else s.find? other := by
  simp only [update, find?, Keyed.find?_modify]
  split
  · rename_i here
    rw [here, show s.objects.find? name = some object from found, Option.map_some]
  · rfl

theorem update_of_find? (found : s.find? name = some object) : s.update name object = s := by
  rw [update, Keyed.modify_of_find? found]

theorem find?_put (s : Session α σ) (name : String) (object : α) (other : String) :
    (s.put name object).find? other = if other = name then some object else s.find? other :=
  Keyed.find?_insert ..

theorem find?_forget (s : Session α σ) (name other : String) :
    (s.forget name).find? other = if other = name then none else s.find? other :=
  Keyed.find?_erase ..

theorem find?_drop (s : Session α σ) (name : String) (dropObject : α → σ → σ) (other : String) :
    (s.drop name dropObject).find? other = if other = name then none else s.find? other := by
  rw [drop]
  split
  · rename_i absent
    split
    · rename_i here
      rw [here, absent]
    · rfl
  · exact s.find?_forget name other

/-! ## The objects in use -/

/-- The objects in use, in some order. -/
def inUse (s : Session α σ) : List α := s.objects.entries.map (·.2)

theorem mem_inUse_iff : object ∈ s.inUse ↔ ∃ name, s.find? name = some object := by
  rw [inUse, List.mem_map]
  constructor
  · rintro ⟨e, member, rfl⟩
    exact ⟨e.1, Keyed.mem_entries_iff.mp member⟩
  · rintro ⟨name, found⟩
    exact ⟨(name, object), Keyed.mem_entries_iff.mpr found, rfl⟩

theorem inUse_of_find? (found : s.find? name = some object) :
    s.inUse.Perm (object :: (s.forget name).inUse) :=
  (Keyed.perm_of_find? found).map _

theorem inUse_update (found : s.find? name = some object) (changed : α) :
    (s.update name changed).inUse.Perm (changed :: (s.forget name).inUse) := by
  have there : (s.update name changed).find? name = some changed := by
    rw [find?_update found, if_pos rfl]
  have others : ((s.update name changed).forget name).inUse = (s.forget name).inUse :=
    congrArg (List.map _) (Keyed.erase_modify ..)
  rw [← others]
  exact inUse_of_find? there

theorem inUse_put (absent : s.find? name = none) (object : α) :
    (s.put name object).inUse = object :: s.inUse := by
  have others : (s.forget name).inUse = s.inUse :=
    congrArg (List.map _) (Keyed.entries_erase_of_none absent)
  rw [← others]
  rfl

end Session
end MappedStorage
