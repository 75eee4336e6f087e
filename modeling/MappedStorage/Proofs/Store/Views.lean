import MappedStorage.Proofs.Mapping.GeometricGrowth
import MappedStorage.Proofs.Store.Medium

/-!
The two ways to look at a file. A store copies bytes into a buffer (`Store.readInto`) or shows them in place
(`Store.fetch?`). Whatever has been done through the stores of a table and around them, its regions are in use
(`Stores.Reachable.regions`), so both ways show the same part of the valid bytes, and never more
(`Stores.views_agree`).
-/

namespace MappedStorage

/-- The bytes up to the size of the file, or none once the store is closed. -/
def Store.validBytes (s : Store) (t : RegionTable) (p : Platform) : Bytes :=
  match s.region? t with
  | some region => region.validBytes p
  | none => #[]

namespace Stores

/-- What stores come to by any events, with anything happening to files and mappings in between. -/
inductive Reachable : Stores → Prop
  | start (p : Platform) : Reachable (start p)
  | stepped {s : Stores} (reachable : Reachable s) (e : StoreEvent) : Reachable (s.step e).2
  | meanwhile {s : Stores} (reachable : Reachable s) (p : Platform) :
      Reachable { s with state := (s.table, p) }

/-- The regions of the table are in use. -/
def RegionsInUse (s : Stores) : Prop :=
  ∀ key held, s.table.find? key = some held → held.region.InUse

/-! ## What is reached -/

section

variable {s s' : Stores} {e : StoreEvent} {name : String} {store : Store}

theorem Stepped.regionsInUse (stepped : s.Stepped e s') (inUse : s.RegionsInUse) : s'.RegionsInUse := by
  intro key held' there
  obtain ⟨held, found, same | ⟨offset, data, written⟩⟩ | ⟨-, _, _, _, _, _, -, opening⟩ :=
    stepped.region there
  · rw [same]
    exact inUse key held found
  · rw [written]
    exact .served (inUse key held found) s.platform (.write offset data)
  · exact .opened opening

theorem Reachable.regions (reachable : s.Reachable) : s.RegionsInUse := by
  induction reachable with
  | start p =>
    intro key held there
    cases there
  | @stepped s _ e ih => exact (s.stepped e).regionsInUse ih
  | meanwhile _ _ ih => exact ih

theorem Reachable.counts (reachable : s.Reachable) : s.table.Counts s.holders := by
  induction reachable with
  | start p => exact start_counts p
  | @stepped s _ e ih => exact (s.stepped e).counts ih
  | meanwhile _ _ ih => exact ih

/-- A store that is open has a region, which is in use. -/
theorem Reachable.region (reachable : s.Reachable) (found : s.find? name = some store)
    (isOpen : store.closed = false) : ∃ r, store.region? s.table = some r ∧ r.InUse := by
  have holders := (reachable.counts.positive store.path.key).mpr (holders_pos found isOpen)
  obtain ⟨held, there⟩ := Option.ne_none_iff_exists'.mp holders
  exact ⟨held.region, Store.region?_eq_some_iff.mpr ⟨isOpen, held.stores, there⟩,
    reachable.regions _ held there⟩

end

end Stores

/-! ## What is shown -/

namespace Store

variable {s : Store} {t : RegionTable} {r : Region}

theorem size_validBytes (region : s.region? t = some r) (fitted : r.Fitted) (p : Platform) :
    (s.validBytes t p).size = s.fileSize t := by
  rw [validBytes, region, fileSize_eq region]
  exact fitted.size_validBytes p

/-- A range within the file is shown in place, and copied as a whole. -/
theorem views_of_le (region : s.region? t = some r) (inUse : r.InUse) {offset : Nat} {buffer : Bytes}
    (within : offset + buffer.size ≤ s.fileSize t) (p : Platform) :
    s.fetch? offset buffer.size t p = some ((s.validBytes t p).extract offset (offset + buffer.size)) ∧
      s.readInto offset buffer t p =
        (.ok (), (s.validBytes t p).extract offset (offset + buffer.size)) := by
  have fitted := inUse.fitted
  have bound := Nat.le_trans fitted.used_le inUse.addressable
  have size := size_validBytes region fitted p
  have shown : window (r.validBytes p) offset buffer.size =
      (s.validBytes t p).extract offset (offset + buffer.size) := by
    rw [← window_of_le (by omega), validBytes, region]
  rw [fileSize_eq region] at within
  rw [fetch?_of_fitted region fitted bound, readInto_of_fitted region fitted, if_pos within, if_pos within,
    shown]
  exact ⟨rfl, rfl⟩

/-- A range that ends beyond the file is not shown, and copied as far as the file goes. -/
theorem views_of_lt (region : s.region? t = some r) (inUse : r.InUse) {offset : Nat} {buffer : Bytes}
    (beyond : s.fileSize t < offset + buffer.size) (p : Platform) :
    let count := min buffer.size (s.fileSize t - offset)
    s.fetch? offset buffer.size t p = none ∧
      s.readInto offset buffer t p =
        (.error (.shortRead offset buffer.size (s.fileSize t)),
          (s.validBytes t p).extract offset (offset + count) ++
            Array.replicate (buffer.size - count) 0) := by
  have fitted := inUse.fitted
  have bound := Nat.le_trans fitted.used_le inUse.addressable
  have shown : window (r.validBytes p) offset buffer.size =
      (s.validBytes t p).extract offset (offset + min buffer.size (s.fileSize t - offset)) ++
        Array.replicate (buffer.size - min buffer.size (s.fileSize t - offset)) 0 := by
    rw [window_eq_extract, fitted.size_validBytes, fileSize_eq region, validBytes, region]
  dsimp only
  rw [← shown]
  rw [fileSize_eq region] at beyond ⊢
  rw [fetch?_of_fitted region fitted bound, readInto_of_fitted region fitted,
    if_neg (Nat.not_le.mpr beyond), if_neg (Nat.not_le.mpr beyond)]
  exact ⟨rfl, rfl⟩

/-- A store that is closed shows nothing and leaves the buffer. -/
theorem views_of_closed (closed : s.closed = true) (offset : Nat) (buffer : Bytes) (p : Platform) :
    s.fetch? offset buffer.size t p = none ∧ s.readInto offset buffer t p = (.error .closed, buffer) := by
  have none : s.region? t = none := by rw [region?, if_pos closed]
  rw [fetch?, readInto, none]
  exact ⟨rfl, rfl⟩

end Store

namespace Stores

/-- Copying bytes and showing them in place agree on every store. An open one shows a range if it ends within
the file, and then the copy is granted and has the bytes shown. Elsewhere nothing is shown, and the copy falls
short: it has the valid bytes that there are from the offset on, and then zeros. -/
theorem views_agree {s : Stores} {name : String} {store : Store} (reachable : s.Reachable)
    (found : s.find? name = some store) (offset : Nat) (buffer : Bytes) :
    let valid := store.validBytes s.table s.platform
    let size := store.fileSize s.table
    let count := min buffer.size (size - offset)
    let shown := store.fetch? offset buffer.size s.table s.platform
    let copied := store.readInto offset buffer s.table s.platform
    (store.closed = false → valid.size = size ∧
      (offset + buffer.size ≤ size →
        shown = some (valid.extract offset (offset + buffer.size)) ∧
          copied = (.ok (), valid.extract offset (offset + buffer.size))) ∧
      (size < offset + buffer.size →
        shown = none ∧
          copied = (.error (.shortRead offset buffer.size size),
            valid.extract offset (offset + count) ++ Array.replicate (buffer.size - count) 0))) ∧
    (store.closed = true → shown = none ∧ copied = (.error .closed, buffer)) := by
  refine ⟨fun isOpen => ?_, fun closed => Store.views_of_closed closed ..⟩
  obtain ⟨r, region, inUse⟩ := reachable.region found isOpen
  exact ⟨Store.size_validBytes region inUse.fitted _, fun within => Store.views_of_le region inUse within _,
    fun beyond => Store.views_of_lt region inUse beyond _⟩

/-- For instance three bytes in a mapping of eight: the last two of them, and the last one with two more. -/
theorem written_bytes_viewed :
    let s : Stores := (start .empty).run
      [.open "data" ⟨[0x78]⟩ .data { initialCapacity := 8 }, .write "data" 0 #[1, 2, 3]]
    ∃ store, s.find? "data" = some store ∧ store.capacity s.table = 8 ∧
      store.fetch? 1 2 s.table s.platform = some #[2, 3] ∧
      store.readInto 1 #[7, 7] s.table s.platform = (.ok (), #[2, 3]) ∧
      store.fetch? 2 3 s.table s.platform = none ∧
      store.readInto 2 #[7, 7, 7] s.table s.platform = (.error (.shortRead 2 3 3), #[3, 0, 0]) := by
  intro s
  have reachable : s.Reachable := .stepped (.stepped (.start .empty) _) _
  have seen : (s.find? "data").map (fun store => (store.closed, store.capacity s.table,
      store.fileSize s.table, store.validBytes s.table s.platform)) = some (false, 8, 3, #[1, 2, 3]) := by
    dsimp +zetaDelta only
    cbv
  obtain ⟨store, found, seen⟩ := Option.map_eq_some_iff.mp seen
  simp only [Prod.mk.injEq] at seen
  obtain ⟨isOpen, capacity, size, valid⟩ := seen
  obtain ⟨-, within, -⟩ := (views_agree reachable found 1 #[7, 7]).1 isOpen
  obtain ⟨-, -, beyond⟩ := (views_agree reachable found 2 #[7, 7, 7]).1 isOpen
  rw [size, valid] at within beyond
  obtain ⟨shown, copied⟩ := within (by decide)
  obtain ⟨absent, short⟩ := beyond (by decide)
  exact ⟨store, found, capacity, shown, copied, absent, short⟩

end Stores
end MappedStorage
