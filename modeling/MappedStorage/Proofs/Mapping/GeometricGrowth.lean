import Mathlib.Algebra.Group.Nat.Defs
import Mathlib.Data.Nat.Log
import MappedStorage.Proofs.Mapping.FailedGrowth

/-!
Growth over whole runs. A request leaves the capacity of a region as it is, or scales it at least by the
growth factor and is counted (`Region.Scaled`). So the capacity stays ahead of a power of the factor with the
count as exponent (`Region.Geometric`), and the count below a logarithm (`run_geometric`), however long the
run is and whatever fails in it.
-/

namespace MappedStorage

/-- The end of the bytes that a request needs to be mapped. -/
def RegionRequest.reach : RegionRequest → Nat
  | .write offset data => if data.size = 0 then 0 else offset + data.size
  | .reserve least => least
  | .read .. | .flush _ | .flushWhole => 0

/-- What was asked for is done. -/
def RegionAnswer.granted : RegionAnswer → Bool
  | .wrote result => result.isOk
  | .read result _ | .reserved result | .flushed result => result.isOk

namespace Region

/-- A region as it is opened, over the file of a path or over an open file. -/
inductive Begins (setup : RegionSetup) : Region → Prop
  | opened {path : Path} {p p' : Platform} {r : Region}
      (opening : Region.open path setup p = (.ok r, p')) : Begins setup r
  | attached {h : Handle} {label : Path} {p p' : Platform} {r : Region}
      (opening : ofHandle h label setup p = (.ok r, p')) : Begins setup r

/-- A region after requests in order, each of them on some platform: anything may have happened to files and
mappings in between. -/
def after (r : Region) (calls : List (RegionRequest × Platform)) : Region :=
  calls.foldl (fun r call => (r.serve call.2 call.1).2.1) r

/-- What a request does to the capacity of a region, and to the count of its growth. -/
inductive Scaled (r r' : Region) : Prop
  | kept (capacity : r'.capacity = r.capacity) (remaps : r'.remaps = r.remaps)
  | grown (larger : r.capacity < r'.capacity)
      (scaled : r.capacity * r.setup.growth.factor ≤ r'.capacity)
      (addressable : r'.capacity ≤ Word.addressable) (remaps : r'.remaps = r.remaps + 1)

/-- A region that has grown from a capacity, each time by the factor at least. -/
structure Geometric (setup : RegionSetup) (start : Nat) (r : Region) : Prop extends Fitted r where
  setup_eq : r.setup = setup
  product : start * setup.growth.factor ^ r.remaps ≤ r.capacity
  addressable : r.capacity ≤ Word.addressable

variable {r r' : Region} {p p' : Platform} {setup : RegionSetup}

/-! ## One request -/

/-- Mapping a file anew is not counted by itself. -/
theorem remap_uncounted {capacity : Nat} {result : Except RegionError Unit}
    (remapped : r.remap capacity p = (result, r', p')) : r'.remaps = r.remaps := by
  cases remap_cases remapped <;> rfl

theorem Scaled.refl (r : Region) : r.Scaled r := .kept rfl rfl

theorem reserve_scaled {least : Nat} {result : Except RegionError Unit} (fitted : r.Fitted)
    (reserved : r.reserve least p = (result, r', p')) : r.Scaled r' ∧ r'.setup = r.setup := by
  cases reserve_cases reserved with
  | closed | covered | excessive => exact ⟨.refl r, rfl⟩
  | refused _ _ remapped =>
    obtain ⟨grown, mapped, -⟩ := remap_correct fitted.shows remapped
    exact ⟨.kept (by rw [capacity, capacity, mapped]) (remap_uncounted remapped), grown.same.setup⟩
  | @enlarged g s _ _ growth remapped =>
    obtain ⟨short, covers, addressable⟩ := GrowthRule.grow_reaches growth
    have scaled := GrowthRule.mul_factor_le_of_grow growth
    obtain ⟨grown, m, mapped, m_len, -⟩ := remap_correct fitted.shows remapped
    have reached : ({ s with remaps := s.remaps + 1 } : Region).capacity = g.capacity :=
      (capacity_eq_of_mapped mapped).trans m_len
    refine ⟨.grown ?_ ?_ ?_ (congrArg (· + 1) (remap_uncounted remapped)), grown.same.setup⟩ <;> rw [reached]
    · omega
    · exact scaled
    · exact addressable

/-- Bytes that are stored leave the capacity, so a write scales a region as its request for capacity does. -/
theorem write_scaled {offset : Nat} {data : Bytes} {result : Except RegionError Span} (fitted : r.Fitted)
    (wrote : r.write offset data p = (result, r', p')) : r.Scaled r' ∧ r'.setup = r.setup := by
  cases write_cases wrote with
  | closed | beyond | empty => exact ⟨.refl r, rfl⟩
  | refused reserved => exact reserve_scaled fitted reserved
  | stored _ reserved =>
    obtain ⟨scaled, setup⟩ := reserve_scaled fitted reserved
    refine ⟨?_, setup⟩
    cases scaled with
    | kept capacity remaps => exact .kept capacity remaps
    | grown larger scaled addressable remaps => exact .grown larger scaled addressable remaps

theorem serve_scaled (fitted : r.Fitted) (p : Platform) (request : RegionRequest) :
    r.Scaled (r.serve p request).2.1 ∧ (r.serve p request).2.1.setup = r.setup := by
  cases request with
  | write offset data => exact write_scaled fitted rfl
  | reserve least => exact reserve_scaled fitted rfl
  | read offset buffer | flush f | flushWhole => exact ⟨.refl r, rfl⟩

theorem Scaled.capacity_le (scaled : r.Scaled r') : r.capacity ≤ r'.capacity := by
  cases scaled with
  | kept capacity => exact Nat.le_of_eq capacity.symm
  | grown larger => exact Nat.le_of_lt larger

/-- Growth is counted once, and nothing else is. -/
theorem Scaled.remaps_eq (scaled : r.Scaled r') :
    r'.remaps = r.remaps + if r.capacity < r'.capacity then 1 else 0 := by
  cases scaled with
  | kept capacity remaps => rw [remaps, if_neg (by omega), Nat.add_zero]
  | grown larger _ _ remaps => rw [remaps, if_pos larger]

/-- A request that is granted has the bytes mapped that it needs. -/
theorem serve_covers (fitted : r.Fitted) (p : Platform) (request : RegionRequest)
    (granted : (r.serve p request).1.granted = true) :
    request.reach ≤ (r.serve p request).2.1.capacity := by
  cases request with
  | write offset data =>
    rcases wrote : r.write offset data p with ⟨result, s, q⟩
    simp only [serve, wrote, RegionAnswer.granted, RegionRequest.reach] at granted ⊢
    cases write_cases wrote with
    | closed | beyond | refused => cases granted
    | empty nothing =>
      rw [if_pos nothing]
      exact Nat.zero_le _
    | stored nonempty reserved =>
      rw [if_neg (Nat.ne_of_gt nonempty)]
      exact (fitted.reserve reserved).2 rfl
  | reserve least =>
    rcases reserved : r.reserve least p with ⟨result, s, q⟩
    simp only [serve, reserved, RegionAnswer.granted, RegionRequest.reach] at granted ⊢
    cases result with
    | error e => cases granted
    | ok => exact (fitted.reserve reserved).2 rfl
  | read offset buffer | flush f | flushWhole => exact Nat.zero_le _

/-! ## Runs -/

theorem ofTrackedFile_begins {f : TrackedFile} (opened : ofTrackedFile f setup p = (.ok r, p')) :
    r.Geometric setup r.capacity := by
  have fitted := ofTrackedFile_fitted opened
  obtain ⟨capacity, -, addressable, -, ⟨rfl, rfl, -⟩ | remapped⟩ := ofTrackedFile_eq_ok opened
  · exact ⟨fitted, rfl, Nat.le_refl 0, Nat.zero_le _⟩
  · obtain ⟨grown, m, mapped, m_len, -⟩ := remap_correct (by simp [unmappedOver]) remapped
    have none_yet : r.remaps = 0 := remap_uncounted remapped
    refine ⟨fitted, grown.same.setup, by rw [none_yet, Nat.pow_zero, Nat.mul_one], ?_⟩
    rw [capacity_eq_of_mapped mapped, m_len]
    exact addressable

theorem Begins.geometric (begins : Begins setup r) : r.Geometric setup r.capacity := by
  cases begins with
  | attached opening => exact ofTrackedFile_begins opening
  | opened opening =>
    unfold Region.open at opening
    split at opening
    · cases opening
    · exact ofTrackedFile_begins opening

/-- A region in use never reaches past the addresses there are. -/
theorem InUse.addressable (inUse : r.InUse) : r.capacity ≤ Word.addressable := by
  induction inUse with
  | opened opening => exact (Begins.opened opening).geometric.addressable
  | attached opening => exact (Begins.attached opening).geometric.addressable
  | served inUse p request ih =>
    obtain ⟨scaled, -⟩ := serve_scaled inUse.fitted p request
    cases scaled with
    | kept capacity => rw [capacity]; exact ih
    | grown _ _ addressable => exact addressable
  | counted _ _ ih => exact ih

theorem Geometric.serve {start : Nat} (geometric : r.Geometric setup start) (p : Platform)
    (request : RegionRequest) : (r.serve p request).2.1.Geometric setup start := by
  obtain ⟨scaled, same⟩ := serve_scaled geometric.toFitted p request
  have product := geometric.product
  have addressable := geometric.addressable
  refine ⟨geometric.toFitted.serve p request, same.trans geometric.setup_eq, ?_, ?_⟩
  · cases scaled with
    | kept capacity remaps => rw [capacity, remaps]; exact product
    | grown _ scaled _ remaps =>
      rw [geometric.setup_eq] at scaled
      calc start * setup.growth.factor ^ (r.serve p request).2.1.remaps
          = start * setup.growth.factor ^ r.remaps * setup.growth.factor := by
            rw [remaps, Nat.pow_succ, Nat.mul_assoc]
        _ ≤ r.capacity * setup.growth.factor := Nat.mul_le_mul_right _ product
        _ ≤ (r.serve p request).2.1.capacity := scaled
  · cases scaled with
    | kept capacity => rw [capacity]; exact addressable
    | grown _ _ addressable => exact addressable

theorem Geometric.after {start : Nat} (geometric : r.Geometric setup start)
    (calls : List (RegionRequest × Platform)) : (r.after calls).Geometric setup start := by
  induction calls generalizing r with
  | nil => exact geometric
  | cons call rest ih => exact ih (geometric.serve call.2 call.1)

/-- There is room for no more growth than the logarithm of the addresses tells. -/
theorem Geometric.remaps_le {start : Nat} (geometric : r.Geometric setup start) (positive : 0 < start) :
    r.remaps ≤ Nat.log setup.growth.factor (Word.addressable / start) := by
  refine Nat.le_log_of_pow_le setup.growth.two_le_factor ?_
  rw [Nat.le_div_iff_mul_le positive, Nat.mul_comm]
  exact Nat.le_trans geometric.product geometric.addressable

/-- Whatever a region is asked for and whatever fails, its capacity is ahead of the power of the growth factor
with the count of growth as exponent, and the count is bounded. A request is counted if it makes the capacity
larger, and if it is granted the capacity covers it. -/
theorem run_geometric (begins : Begins setup r) (room : 0 < r.capacity)
    (calls : List (RegionRequest × Platform)) :
    let last := r.after calls
    r.capacity * setup.growth.factor ^ last.remaps ≤ last.capacity ∧
      last.remaps ≤ Nat.log setup.growth.factor (Word.addressable / r.capacity) ∧
      ∀ request p,
        let (answer, next, _) := last.serve p request
        last.capacity ≤ next.capacity ∧
          next.remaps = last.remaps + (if last.capacity < next.capacity then 1 else 0) ∧
          (answer.granted = true → request.reach ≤ next.capacity) := by
  have geometric := begins.geometric.after calls
  refine ⟨geometric.product, geometric.remaps_le room, fun request p => ?_⟩
  obtain ⟨scaled, -⟩ := serve_scaled geometric.toFitted p request
  exact ⟨scaled.capacity_le, scaled.remaps_eq, serve_covers geometric.toFitted p request⟩

/-- For instance a write that is made twice: the system refuses the mapping for the first one, which leaves
four bytes, and grants it for the second, which makes them sixteen at once. -/
theorem second_write_grows :
    let setup : RegionSetup := { mapper := { detection := .emulated }, initialCapacity := 4 }
    let start : Platform := { files := .empty, plan := { plain := [.granted, .refused Errno.noMemory] } }
    let write : RegionRequest := .write 14 #[1, 2]
    ∃ r p, Region.open ⟨[0x78]⟩ setup start = (.ok r, p) ∧ r.capacity = 4 ∧
      (r.after [(write, p)]).capacity = 4 ∧
      let last := r.after [(write, p), (write, (r.serve p write).2.2)]
      last.capacity = 16 ∧ last.remaps = 1 ∧
        r.capacity * setup.growth.factor ^ last.remaps ≤ last.capacity ∧
        last.remaps ≤ Nat.log setup.growth.factor (Word.addressable / r.capacity) ∧
        ∀ request p,
          let (answer, next, _) := last.serve p request
          last.capacity ≤ next.capacity ∧
            next.remaps = last.remaps + (if last.capacity < next.capacity then 1 else 0) ∧
            (answer.granted = true → request.reach ≤ next.capacity) := by
  intro setup start write
  have sizes : (match Region.open ⟨[0x78]⟩ setup start with
      | (.ok r, p) =>
        let last := r.after [(write, p), (write, (r.serve p write).2.2)]
        some (r.capacity, (r.after [(write, p)]).capacity, last.capacity, last.remaps)
      | (.error _, _) => none) = some (4, 4, 16, 1) := by
    dsimp +zetaDelta only
    cbv
  rcases opened : Region.open ⟨[0x78]⟩ setup start with ⟨_ | r, p⟩ <;> rw [opened] at sizes
  · cases sizes
  · simp only [Option.some.injEq, Prod.mk.injEq] at sizes
    obtain ⟨before, refused, larger, once⟩ := sizes
    have room : 0 < r.capacity := by rw [before]; exact Nat.zero_lt_succ _
    exact ⟨r, p, rfl, before, refused, larger, once,
      run_geometric (.opened opened) room [(write, p), (write, (r.serve p write).2.2)]⟩

end Region
end MappedStorage
