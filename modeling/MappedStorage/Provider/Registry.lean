/-!
Providers by name. The first provider of the registry is the default one. Registering replaces
the provider of the same name; a new default goes to the front, any other one behind the default.
-/

namespace MappedStorage

/-- Providers of some type with their names, the default one first. -/
structure Registry (α : Type) where
  entries : List (String × α) := []

namespace Registry

variable {α : Type}

/-- The registry without the provider of a name. -/
def unregister (r : Registry α) (name : String) : Registry α :=
  ⟨r.entries.eraseP (·.1 = name)⟩

/-- The registry with a provider under a name. -/
def register (r : Registry α) (name : String) (provider : α) (makeDefault : Bool) : Registry α :=
  match (r.unregister name).entries with
  | [] => ⟨[(name, provider)]⟩
  | first :: rest =>
    if makeDefault then ⟨(name, provider) :: first :: rest⟩
    else ⟨first :: (name, provider) :: rest⟩

/-- The provider of a name. -/
def find? (r : Registry α) (name : String) : Option α :=
  (r.entries.find? (·.1 = name)).map (·.2)

/-- The provider that is used where no name is given. -/
def default? (r : Registry α) : Option α := r.entries.head?.map (·.2)

/-- The names in order, the default first. -/
def names (r : Registry α) : List String := r.entries.map (·.1)

end Registry
end MappedStorage
