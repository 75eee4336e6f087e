import MappedStorage.Proofs.Store.Table

/-!
What the operations of a store come to, in terms of its region: a store opens or shares a region
(`open_correct`), its writes are those of the region with a flush after them for a log
(`write_correct`), and the last store closed closes the region (`close_correct`).
-/

namespace MappedStorage.Store

/-- The store is open on the region of a key. -/
def holds (s : Store) (key : Path.Key) : Bool := !s.closed && s.path.key = key

/-- A write through the store stores its bytes, whether or not the flush after it succeeds. -/
def takes (s : Store) (offset : Nat) (data : Bytes) (t : RegionTable) (p : Platform) : Bool :=
  match s.region? t with
  | some region => (region.write offset data p).1.isOk
  | none => false

/-- A store at two times: only its counts of flushes have changed. -/
structure SameStore (s s' : Store) : Prop where
  path : s'.path = s.path
  medium : s'.medium = s.medium
  role : s'.role = s.role
  closed : s'.closed = s.closed

/-- What opening a store comes to: it shares the region of its path, or a region is opened. -/
def OpenCorrect (path : Path) (role : Role) (setup : RegionSetup) (t : RegionTable) (p : Platform)
    (t' : RegionTable) (p' : Platform) : Except ProviderError Store → Prop
  | .ok s => (∃ held, t.find? path.key = some held ∧ s = attach path role held.region ∧
        t' = t.insert path.key { held with stores := held.stores + 1 } ∧ p' = p) ∨
      t.find? path.key = none ∧ ∃ r, Region.open path setup p = (.ok r, p') ∧
        s = attach path role r ∧ t' = t.insert path.key ⟨r, 1⟩
  | .error _ => t.find? path.key = none ∧ t' = t ∧ ∃ e, Region.open path setup p = (.error e, p')

/-- What becomes of the bytes that a region has written for a store. -/
def FlushCorrect (s : Store) (r : Region) (q : Platform) (result : Except ProviderError Unit)
    (p' : Platform) : Except RegionError Span → Prop
  | .error _ => p' = q ∧ ∃ e, result = .error e
  | .ok written => match s.role with
    | .data => p' = q ∧ result = .ok ()
    | .log => ∃ flushed, r.flush ⟨s.medium, written⟩ q = (flushed, p') ∧
      (result = .ok () ↔ flushed = .ok ())

/-- What writing comes to, by the region that the store is open on. -/
def WriteCorrect (s : Store) (offset : Nat) (data : Bytes) (t : RegionTable) (p : Platform)
    (result : Except ProviderError Unit) (s' : Store) (t' : RegionTable) (p' : Platform) :
    Option Region → Prop
  | none => result = .error .closed ∧ s' = s ∧ t' = t ∧ p' = p
  | some r => ∃ outcome r' q, r.write offset data p = (outcome, r', q) ∧
    t' = t.setRegion s.path.key r' ∧ s.SameStore s' ∧ s.FlushCorrect r' q result p' outcome

/-- What a sync comes to. -/
def SyncCorrect (s : Store) (p : Platform) (result : Except ProviderError Unit) (s' : Store)
    (p' : Platform) : Option Region → Prop
  | none => result = .error .closed ∧ s' = s ∧ p' = p
  | some r => s.SameStore s' ∧ match s.role with
    | .log => p' = p ∧ result = .ok ()
    | .data => ∃ flushed, r.flush ⟨s.medium, ⟨0, r.used⟩⟩ p = (flushed, p') ∧
      (result = .ok () ↔ flushed = .ok ())

/-- What closing comes to: the last store of a region closes it. -/
def CloseCorrect (s : Store) (t : RegionTable) (p : Platform) (t' : RegionTable) (p' : Platform) :
    Prop :=
  (∀ held, s.closed = false → t.find? s.path.key ≠ some held) ∧ t' = t ∧ p' = p ∨
  ∃ held, s.closed = false ∧ t.find? s.path.key = some held ∧
    (1 < held.stores ∧ t' = t.insert s.path.key { held with stores := held.stores - 1 } ∧ p' = p ∨
      held.stores ≤ 1 ∧ t' = t.erase s.path.key ∧ p' = (held.region.close p).2.2)

variable {s s' : Store} {t t' : RegionTable} {p p' : Platform}

theorem SameStore.refl (s : Store) : s.SameStore s := ⟨rfl, rfl, rfl, rfl⟩

theorem SameStore.holds_eq (same : s.SameStore s') (key : Path.Key) : s'.holds key = s.holds key := by
  rw [holds, holds, same.closed, same.path]

theorem holds_iff {key : Path.Key} :
    s.holds key = true ↔ s.closed = false ∧ s.path.key = key := by
  simp [holds]

/-- A store has the region of its path as long as it is open. -/
theorem region?_eq_some_iff {r : Region} :
    s.region? t = some r ↔ s.closed = false ∧ ∃ n, t.find? s.path.key = some ⟨r, n⟩ := by
  rw [region?]
  cases closed : s.closed with
  | true => simp
  | false =>
    cases found : t.find? s.path.key with
    | none => simp
    | some held =>
      obtain ⟨region, n⟩ := held
      simp

theorem open_correct {path : Path} {role : Role} {setup : RegionSetup}
    {result : Except ProviderError Store} (opened : Store.open path role setup t p = (result, t', p')) :
    OpenCorrect path role setup t p t' p' result := by
  rw [Store.open] at opened
  cases found : t.find? path.key with
  | some held =>
    rw [found] at opened
    cases opened
    exact .inl ⟨held, found, rfl, rfl, rfl⟩
  | none =>
    rw [found] at opened
    dsimp only at opened
    rcases opening : Region.open path setup p with ⟨outcome, q⟩
    rw [opening] at opened
    cases outcome with
    | error e =>
      cases opened
      exact ⟨found, rfl, e, opening⟩
    | ok r =>
      cases opened
      exact .inr ⟨found, r, opening, rfl, rfl⟩

theorem write_correct {offset : Nat} {data : Bytes} {result : Except ProviderError Unit}
    (wrote : s.write offset data t p = (result, s', t', p')) :
    s.WriteCorrect offset data t p result s' t' p' (s.region? t) := by
  rw [write] at wrote
  cases region : s.region? t with
  | none =>
    rw [region] at wrote
    cases wrote
    exact ⟨rfl, rfl, rfl, rfl⟩
  | some r =>
    rw [region] at wrote
    dsimp only at wrote
    rcases writing : r.write offset data p with ⟨outcome, r', q⟩
    rw [writing] at wrote
    cases outcome with
    | error e =>
      cases wrote
      exact ⟨_, r', _, writing, rfl, .refl s, rfl, _, rfl⟩
    | ok written =>
      refine ⟨_, r', q, writing, ?_⟩
      dsimp only at wrote
      cases role : s.role with
      | data =>
        have none_due : s.rule.dueOnWrite written = none := by rw [FlushRule.dueOnWrite, rule, role]
        rw [none_due] at wrote
        cases wrote
        exact ⟨rfl, .refl s, by simp [FlushCorrect, role]⟩
      | log =>
        have due : s.rule.dueOnWrite written = some ⟨s.medium, written⟩ := by
          rw [FlushRule.dueOnWrite, rule, role]
          rfl
        rw [due] at wrote
        dsimp only at wrote
        rcases flushing : r'.flush ⟨s.medium, written⟩ q with ⟨flushed, p''⟩
        rw [flushing] at wrote
        cases flushed <;> cases wrote <;> exact ⟨rfl, ⟨rfl, rfl, rfl, rfl⟩, by
          simp [FlushCorrect, role, flushing]⟩

theorem sync_correct {result : Except ProviderError Unit} (synced : s.sync t p = (result, s', p')) :
    s.SyncCorrect p result s' p' (s.region? t) := by
  rw [sync] at synced
  cases region : s.region? t with
  | none =>
    rw [region] at synced
    cases synced
    exact ⟨rfl, rfl, rfl⟩
  | some r =>
    rw [region] at synced
    dsimp only at synced
    cases role : s.role with
    | log =>
      have none_due : s.rule.dueOnSync r.used = none := by rw [FlushRule.dueOnSync, rule, role]
      rw [none_due] at synced
      cases synced
      exact ⟨⟨rfl, rfl, rfl, rfl⟩, by simp [role]⟩
    | data =>
      have due : s.rule.dueOnSync r.used = some ⟨s.medium, ⟨0, r.used⟩⟩ := by
        rw [FlushRule.dueOnSync, rule, role]
        rfl
      rw [due] at synced
      dsimp only at synced
      rcases flushing : r.flush ⟨s.medium, ⟨0, r.used⟩⟩ p with ⟨flushed, p''⟩
      rw [flushing] at synced
      cases flushed <;> cases synced <;> exact ⟨⟨rfl, rfl, rfl, rfl⟩, by simp [role, flushing]⟩

/-- Writing leaves a store on its region. -/
theorem write_same {offset : Nat} {data : Bytes} {result : Except ProviderError Unit}
    (wrote : s.write offset data t p = (result, s', t', p')) : s.SameStore s' := by
  have correct := write_correct wrote
  cases region : s.region? t with
  | none =>
    rw [region] at correct
    obtain ⟨_, rfl, _⟩ := correct
    exact .refl _
  | some r =>
    rw [region] at correct
    obtain ⟨_, _, _, _, _, same, _⟩ := correct
    exact same

theorem sync_same {result : Except ProviderError Unit} (synced : s.sync t p = (result, s', p')) :
    s.SameStore s' := by
  have correct := sync_correct synced
  cases region : s.region? t with
  | none =>
    rw [region] at correct
    obtain ⟨_, rfl, _⟩ := correct
    exact .refl _
  | some r =>
    rw [region] at correct
    exact correct.1

theorem close_correct {result : Except ProviderError Unit} (closed : s.close t p = (result, s', t', p')) :
    s' = { s with closed := true } ∧ s.CloseCorrect t p t' p' := by
  rw [close] at closed
  cases isClosed : s.closed with
  | true =>
    rw [if_pos isClosed] at closed
    cases closed
    exact ⟨by rw [← isClosed], .inl ⟨by simp [isClosed], rfl, rfl⟩⟩
  | false =>
    rw [if_neg (by simp [isClosed]), release] at closed
    cases found : t.find? s.path.key with
    | none =>
      rw [found] at closed
      cases closed
      exact ⟨rfl, .inl ⟨by simp [found], rfl, rfl⟩⟩
    | some held =>
      rw [found] at closed
      dsimp only at closed
      by_cases shared : 1 < held.stores
      · rw [if_pos shared] at closed
        cases closed
        exact ⟨rfl, .inr ⟨held, isClosed, found, .inl ⟨shared, rfl, rfl⟩⟩⟩
      · rw [if_neg shared] at closed
        rcases closing : held.region.close p with ⟨outcome, r, q⟩
        rw [closing] at closed
        cases outcome <;> cases closed <;>
          exact ⟨rfl, .inr ⟨held, isClosed, found, .inr ⟨by omega, rfl, by rw [closing]⟩⟩⟩

/-- After a write only what is durable may change. -/
theorem FlushCorrect.settled {r : Region} {q : Platform} {result : Except ProviderError Unit}
    {outcome : Except RegionError Span} (correct : s.FlushCorrect r q result p' outcome)
    (shows : ∀ m ∈ r.mapped, m.file = r.fileId) : r.Settled q p' := by
  rw [FlushCorrect.eq_def] at correct
  cases outcome with
  | error e =>
    obtain ⟨rfl, _⟩ := correct
    exact .refl r _
  | ok written =>
    cases role : s.role with
    | data =>
      simp only [role] at correct
      obtain ⟨rfl, _⟩ := correct
      exact .refl r _
    | log =>
      simp only [role] at correct
      obtain ⟨flushed, flushing, _⟩ := correct
      have settled := Region.flush_settled (p := q) shows ⟨s.medium, written⟩
      rwa [flushing] at settled

theorem SyncCorrect.settled {r : Region} {result : Except ProviderError Unit}
    (correct : s.SyncCorrect p result s' p' (some r)) (shows : ∀ m ∈ r.mapped, m.file = r.fileId) :
    r.Settled p p' := by
  obtain ⟨_, flushing⟩ := correct
  cases role : s.role with
  | log =>
    rw [role] at flushing
    obtain ⟨rfl, _⟩ := flushing
    exact .refl r _
  | data =>
    rw [role] at flushing
    obtain ⟨flushed, flushed_eq, _⟩ := flushing
    have settled := Region.flush_settled (p := p) shows ⟨s.medium, ⟨0, r.used⟩⟩
    rwa [flushed_eq] at settled

/-! ## What a store shows -/

section

variable {r : Region}

theorem readInto_of_fitted (region : s.region? t = some r) (fitted : r.Fitted) (offset : Nat)
    (buffer : Bytes) :
    s.readInto offset buffer t p =
      (if offset + buffer.size ≤ r.used then .ok ()
        else .error (.ofRegion .reading (.shortRead offset buffer.size r.used)),
        window (r.validBytes p) offset buffer.size) := by
  rw [readInto, region]
  dsimp only
  rw [fitted.readInto_correct]
  by_cases within : offset + buffer.size ≤ r.used
  · rw [if_pos within, if_pos within]
  · rw [if_neg within, if_neg within]

theorem readInto_correct (region : s.region? t = some r) (sound : r.Sound p) (offset : Nat)
    (buffer : Bytes) :
    s.readInto offset buffer t p =
      (if offset + buffer.size ≤ r.used then .ok ()
        else .error (.ofRegion .reading (.shortRead offset buffer.size r.used)),
        window (r.validBytes p) offset buffer.size) :=
  readInto_of_fitted region sound.fitted offset buffer

theorem fetch?_of_fitted (region : s.region? t = some r) (fitted : r.Fitted)
    (bound : r.used ≤ Word.addressable) (offset len : Nat) :
    s.fetch? offset len t p =
      if offset + len ≤ r.used then some (window (r.validBytes p) offset len) else none := by
  have limit := Word.addressable_lt_max
  rw [fetch?, region]
  dsimp only
  cases sum : Word.add? offset len with
  | none =>
    have beyond : ¬ offset + len ≤ r.used := fun within => by
      rw [Word.add?, if_pos (by omega)] at sum
      cases sum
    rw [if_neg beyond]
  | some stop =>
    obtain ⟨rfl, _⟩ := Word.add?_eq_some_iff.mp sum
    dsimp only
    split
    · rename_i within
      exact fitted.bytes?_correct p within
    · rfl

theorem fetch?_correct (region : s.region? t = some r) (sound : r.Sound p) (offset len : Nat) :
    s.fetch? offset len t p =
      if offset + len ≤ r.used then some (window (r.validBytes p) offset len) else none :=
  fetch?_of_fitted region sound.fitted sound.used_le_addressable offset len

theorem fileSize_eq (region : s.region? t = some r) : s.fileSize t = r.used := by
  rw [fileSize, region]

end

end MappedStorage.Store
