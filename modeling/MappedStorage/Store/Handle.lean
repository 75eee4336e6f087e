import MappedStorage.Store.Basic

/-!
Stores that may stand alone. A store opened alone has a table of open regions to itself, so
it shares its region with no other store; all others share one table.
-/

namespace MappedStorage

/-- A store, with its own table of open regions if it was opened alone. -/
structure StoreHandle where
  store : Store
  own : Option RegionTable := none
  deriving DecidableEq

namespace StoreHandle

/-- Opens a store, alone or on the shared table. -/
def «open» (alone : Bool) (path : Path) (role : Role) (setup : RegionSetup)
    (st : RegionTable × Platform) :
    Except ProviderError StoreHandle × (RegionTable × Platform) :=
  if alone then
    match Store.open path role setup ∅ st.2 with
    | (.ok store, own, p) => (.ok ⟨store, some own⟩, (st.1, p))
    | (.error e, _, p) => (.error e, (st.1, p))
  else
    match Store.open path role setup st.1 st.2 with
    | (.ok store, shared, p) => (.ok ⟨store, none⟩, (shared, p))
    | (.error e, shared, p) => (.error e, (shared, p))

/-- The table that the store is open on. -/
def table (h : StoreHandle) (shared : RegionTable) : RegionTable := h.own.getD shared

/-- An operation on the store and the table that it is open on. -/
def on {ρ : Type}
    (op : Store → RegionTable → Platform → ρ × Store × RegionTable × Platform)
    (h : StoreHandle) (st : RegionTable × Platform) :
    ρ × StoreHandle × (RegionTable × Platform) :=
  match h.own with
  | some own =>
    let (result, store, own, p) := op h.store own st.2
    (result, ⟨store, some own⟩, (st.1, p))
  | none =>
    let (result, store, shared, p) := op h.store st.1 st.2
    (result, ⟨store, none⟩, (shared, p))

/-- Gives the store up. -/
def drop (h : StoreHandle) (st : RegionTable × Platform) : RegionTable × Platform :=
  (h.on Store.close st).2.2

end StoreHandle
end MappedStorage
