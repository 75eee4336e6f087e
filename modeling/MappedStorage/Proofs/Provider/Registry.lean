import Mathlib.Data.List.Induction
import MappedStorage.Proofs.Keyed
import MappedStorage.Provider.Registry

/-!
The registry of providers over any run of registrations and their removal. Names are distinct, each finds
the provider that was last registered under it, and the order of the others never changes: registering puts
a provider among the others, at the front or behind the first of them (`register_entries`). What this makes
of the default is told by `Registered` and `Unregistered`, and of the run by `run_last_writer`.
-/

namespace MappedStorage

/-- A change to a registry. -/
inductive RegistryEvent (α : Type) where
  | register (name : String) (provider : α) (makeDefault : Bool)
  | unregister (name : String)

/-- The name that is changed. -/
def RegistryEvent.name {α : Type} : RegistryEvent α → String
  | .register name _ _ => name
  | .unregister name => name

/-- A provider was registered under a name, and the name was left alone since. -/
def LastRegistered {α : Type} (events : List (RegistryEvent α)) (name : String) (provider : α) : Prop :=
  ∃ earlier makeDefault later, events = earlier ++ .register name provider makeDefault :: later ∧
    ∀ e ∈ later, e.name ≠ name

namespace Registry

variable {α : Type} {r r' : Registry α} {name other : String} {provider found : α} {makeDefault : Bool}
  {events : List (RegistryEvent α)} {e : RegistryEvent α}

def step (r : Registry α) : RegistryEvent α → Registry α
  | .register name provider makeDefault => r.register name provider makeDefault
  | .unregister name => r.unregister name

def run (r : Registry α) (events : List (RegistryEvent α)) : Registry α := events.foldl step r

/-- The providers of all other names, in order. -/
def others (r : Registry α) (name : String) : List (String × α) := r.entries.filter (·.1 ≠ name)

/-- What registering does to the default, which is the first entry, and to the others. -/
structure Registered (r : Registry α) (name : String) (provider : α) (makeDefault : Bool)
    (r' : Registry α) : Prop where
  made : makeDefault = true ∨ r.entries = [] → r'.entries.head? = some (name, provider)
  kept : ∀ first, makeDefault = false → r.entries.head? = some first → first.1 ≠ name →
    r'.entries.head? = some first
  /-- The default is replaced and not made the default again. -/
  passed : ∀ first rest, makeDefault = false → r.entries = first :: rest → first.1 = name →
    r'.entries.head? = some (rest.head?.getD (name, provider))
  others : r'.others name = r.others name

/-- What unregistering does to the default, which is the first entry, and to the others. -/
structure Unregistered (r : Registry α) (name : String) (r' : Registry α) : Prop where
  kept : ∀ first, r.entries.head? = some first → first.1 ≠ name → r'.entries.head? = some first
  promoted : ∀ first rest, r.entries = first :: rest → first.1 = name → r'.entries.head? = rest.head?
  others : r'.others name = r.others name

/-! ## The others -/

theorem mem_others_iff {entry : String × α} : entry ∈ r.others name ↔ entry ∈ r.entries ∧ entry.1 ≠ name := by
  rw [others, List.mem_filter, decide_eq_true_iff]

theorem others_eq_self {entries : List (String × α)} (absent : ∀ entry ∈ entries, entry.1 ≠ name) :
    (⟨entries⟩ : Registry α).others name = entries :=
  List.filter_eq_self.mpr fun entry member => decide_eq_true (absent entry member)

/-- A default of another name is the first of the others. -/
theorem others_cons_of_ne {first : String × α} {rest : List (String × α)} (there : first.1 ≠ name) :
    (⟨first :: rest⟩ : Registry α).others name = first :: (⟨rest⟩ : Registry α).others name :=
  List.filter_cons_of_pos (decide_eq_true there)

/-- The others of the default's name are all that come behind it. -/
theorem others_cons_self {first : String × α} {rest : List (String × α)}
    (nodup : (⟨first :: rest⟩ : Registry α).names.Nodup) :
    (⟨first :: rest⟩ : Registry α).others first.1 = rest := by
  have absent := (List.nodup_cons.mp nodup).1
  rw [others, List.filter_cons_of_neg (by simp)]
  exact others_eq_self fun entry member here => absent (List.mem_map.mpr ⟨entry, member, here⟩)

theorem find?_eq_some_iff (nodup : r.names.Nodup) :
    r.find? name = some provider ↔ (name, provider) ∈ r.entries :=
  (Keyed.mem_entries_iff (t := ⟨r.entries, nodup⟩)).symm

/-! ## Unregistering -/

theorem unregister_entries (nodup : r.names.Nodup) (name : String) :
    (r.unregister name).entries = r.others name := by
  obtain ⟨entries⟩ := r
  induction entries with
  | nil => rfl
  | cons first rest ih =>
    rw [unregister]
    by_cases here : first.1 = name
    · subst here
      rw [others_cons_self nodup, List.eraseP_cons_of_pos (by simp)]
    · rw [others_cons_of_ne here, List.eraseP_cons_of_neg (by simpa using here)]
      exact congrArg (first :: ·) (ih (List.nodup_cons.mp nodup).2)

theorem unregister_nodup (nodup : r.names.Nodup) (name : String) : (r.unregister name).names.Nodup := by
  rw [names, unregister_entries nodup]
  exact nodup.sublist (List.filter_sublist.map _)

theorem unregister_unregistered (nodup : r.names.Nodup) (name : String) :
    Unregistered r name (r.unregister name) := by
  have left := unregister_entries nodup name
  obtain ⟨entries⟩ := r
  refine ⟨?_, ?_, ?_⟩
  · intro first head there
    obtain ⟨rest, rfl⟩ := List.head?_eq_some_iff.mp head
    rw [left, others_cons_of_ne there, List.head?_cons]
  · rintro first rest rfl rfl
    rw [left, others_cons_self nodup]
  · rw [others, left, ← others, others_eq_self]
    exact fun entry member => (mem_others_iff.mp member).2

/-! ## Registering -/

/-- Registering puts the provider among the others. -/
theorem register_entries (nodup : r.names.Nodup) (name : String) (provider : α) (makeDefault : Bool) :
    ∃ front back, r.others name = front ++ back ∧
      (r.register name provider makeDefault).entries = front ++ (name, provider) :: back := by
  rw [register, unregister_entries nodup]
  cases r.others name with
  | nil => exact ⟨[], [], rfl, rfl⟩
  | cons first rest =>
    cases makeDefault with
    | false => exact ⟨[first], rest, rfl, rfl⟩
    | true => exact ⟨[], first :: rest, rfl, rfl⟩

/-- The first of the others comes before the provider unless that is made the default. -/
theorem register_head? (nodup : r.names.Nodup) (name : String) (provider : α) (makeDefault : Bool) :
    (r.register name provider makeDefault).entries.head? =
      if makeDefault then some (name, provider) else some ((r.others name).head?.getD (name, provider)) := by
  rw [register, unregister_entries nodup]
  cases r.others name <;> cases makeDefault <;> rfl

theorem mem_register_iff (nodup : r.names.Nodup) {entry : String × α} :
    entry ∈ (r.register name provider makeDefault).entries ↔
      entry = (name, provider) ∨ entry ∈ r.entries ∧ entry.1 ≠ name := by
  obtain ⟨front, back, split, entries⟩ := register_entries nodup name provider makeDefault
  rw [entries, ← mem_others_iff, split]
  simp only [List.mem_append, List.mem_cons, or_left_comm]

theorem register_nodup (nodup : r.names.Nodup) (name : String) (provider : α) (makeDefault : Bool) :
    (r.register name provider makeDefault).names.Nodup := by
  obtain ⟨front, back, split, entries⟩ := register_entries nodup name provider makeDefault
  have rest := unregister_nodup nodup name
  rw [names, unregister_entries nodup, split] at rest
  rw [names, entries, List.map_append, List.map_cons, List.nodup_middle, ← List.map_append]
  refine List.nodup_cons.mpr ⟨fun again => ?_, rest⟩
  rw [← split] at again
  obtain ⟨entry, member, here⟩ := List.mem_map.mp again
  exact (mem_others_iff.mp member).2 here

theorem register_others (nodup : r.names.Nodup) (name : String) (provider : α) (makeDefault : Bool) :
    (r.register name provider makeDefault).others name = r.others name := by
  obtain ⟨front, back, split, entries⟩ := register_entries nodup name provider makeDefault
  have absent (entry) (member : entry ∈ front ++ back) : entry.1 ≠ name :=
    (mem_others_iff.mp (split ▸ member)).2
  rw [split, ← others_eq_self absent, others, others, entries, List.filter_append, List.filter_append,
    List.filter_cons_of_neg (by simp)]

theorem register_registered (nodup : r.names.Nodup) (name : String) (provider : α) (makeDefault : Bool) :
    Registered r name provider makeDefault (r.register name provider makeDefault) := by
  have head := register_head? nodup name provider makeDefault
  have same := register_others nodup name provider makeDefault
  obtain ⟨entries⟩ := r
  refine ⟨?_, ?_, ?_, same⟩
  · rintro (rfl | rfl)
    · exact head
    · exact head.trans (ite_self _)
  · rintro first rfl whole there
    obtain ⟨rest, rfl⟩ := List.head?_eq_some_iff.mp whole
    rw [head, others_cons_of_ne there]
    rfl
  · rintro first rest rfl rfl rfl
    rw [head, others_cons_self nodup]
    rfl

/-! ## Runs -/

theorem lastRegistered_concat_iff : LastRegistered (events ++ [e]) name provider ↔
    (∃ makeDefault, e = .register name provider makeDefault) ∨
      e.name ≠ name ∧ LastRegistered events name provider := by
  constructor
  · rintro ⟨earlier, makeDefault, later, run, quiet⟩
    obtain rfl | ⟨before, last, rfl⟩ := later.eq_nil_or_concat'
    · obtain ⟨-, only⟩ := List.append_inj' run rfl
      exact .inl ⟨makeDefault, List.singleton_inj.mp only⟩
    · rw [← List.cons_append, ← List.append_assoc] at run
      obtain ⟨rfl, only⟩ := List.append_inj' run rfl
      obtain rfl := List.singleton_inj.mp only
      rw [List.forall_mem_append, List.forall_mem_singleton] at quiet
      exact .inr ⟨quiet.2, earlier, makeDefault, before, rfl, quiet.1⟩
  · rintro (⟨makeDefault, rfl⟩ | ⟨other, earlier, makeDefault, later, rfl, quiet⟩)
    · exact ⟨events, makeDefault, [], rfl, List.forall_mem_nil _⟩
    · refine ⟨earlier, makeDefault, later ++ [e], by simp, ?_⟩
      rw [List.forall_mem_append, List.forall_mem_singleton]
      exact ⟨quiet, other⟩

theorem run_concat (r : Registry α) (events : List (RegistryEvent α)) (e : RegistryEvent α) :
    r.run (events ++ [e]) = (r.run events).step e := by
  simp [run]

theorem step_nodup (nodup : r.names.Nodup) (e : RegistryEvent α) : (r.step e).names.Nodup := by
  cases e with
  | register name provider makeDefault => exact register_nodup nodup name provider makeDefault
  | unregister name => exact unregister_nodup nodup name

theorem run_nodup (events : List (RegistryEvent α)) : (({} : Registry α).run events).names.Nodup := by
  induction events using List.reverseRecOn with
  | nil => exact List.nodup_nil
  | append_singleton events e ih =>
    rw [run_concat]
    exact step_nodup ih e

/-- An entry is there after a change if the change registered it, or left its name alone. -/
theorem mem_step_iff (nodup : r.names.Nodup) : (name, provider) ∈ (r.step e).entries ↔
    (∃ makeDefault, e = .register name provider makeDefault) ∨
      e.name ≠ name ∧ (name, provider) ∈ r.entries := by
  cases e with
  | register at' v flag =>
    rw [step, mem_register_iff nodup]
    simp [RegistryEvent.name, and_comm, eq_comm]
  | unregister at' =>
    rw [step, unregister_entries nodup, mem_others_iff]
    simp [RegistryEvent.name, and_comm, eq_comm]

theorem mem_run_iff : (name, provider) ∈ (({} : Registry α).run events).entries ↔
    LastRegistered events name provider := by
  induction events using List.reverseRecOn with
  | nil => simp [run, LastRegistered]
  | append_singleton events e ih =>
    rw [run_concat, mem_step_iff (run_nodup events), ih, lastRegistered_concat_iff]

/-- Over any run from the empty registry, the last provider registered under a name is the one found, there
is a default as long as any provider is registered, and the next change makes, keeps or passes on the
default as it should. -/
theorem run_last_writer (events : List (RegistryEvent α)) :
    let r := ({} : Registry α).run events
    r.names.Nodup ∧
      (∀ name provider, r.find? name = some provider ↔ LastRegistered events name provider) ∧
        (r.default?.isSome ↔ ∃ name provider, LastRegistered events name provider) ∧
          (∀ name provider makeDefault,
            Registered r name provider makeDefault (r.register name provider makeDefault)) ∧
            ∀ name, Unregistered r name (r.unregister name) := by
  intro r
  have nodup : r.names.Nodup := run_nodup events
  refine ⟨nodup, fun name provider => ?_, ?_, register_registered nodup, unregister_unregistered nodup⟩
  · rw [find?_eq_some_iff nodup, mem_run_iff]
  · simp only [← mem_run_iff]
    change r.default?.isSome ↔ ∃ name provider, (name, provider) ∈ r.entries
    rw [default?]
    cases r.entries with
    | nil => simp
    | cons first rest => exact iff_of_true rfl ⟨first.1, first.2, List.mem_cons_self⟩

/-- The default that is registered again, and not as the default, comes behind the next provider. -/
example : (({} : Registry Nat).run [.register "a" 1 false, .register "b" 2 false, .register "c" 3 false,
    .register "a" 4 false]).entries = [("c", 3), ("a", 4), ("b", 2)] := by decide

end Registry
end MappedStorage
