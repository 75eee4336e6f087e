import MappedStorage.Proofs.Store.Basic
import MappedStorage.Session

/-!
Runs of stores that share one table. An event is one operation on the store of a name, and the
bytes that have been written to each path are accounted for as the run goes on (`account`). As long as
the files of different paths are different, the stores of each path are counted and its region holds
the account (`run_valid`).
-/

namespace MappedStorage

/-- Stores by name, with the table and the platform that they share. -/
abbrev Stores := Session Store (RegionTable × Platform)

/-- One operation on the store of a name. A store that is opened takes the place of the one that had
the name, which is dropped. -/
inductive StoreEvent where
  | «open» (name : String) (path : Path) (role : Role) (setup : RegionSetup)
  | write (name : String) (offset : Nat) (data : Bytes)
  | read (name : String) (offset : Nat) (buffer : Bytes)
  | fetch (name : String) (offset len : Nat)
  | fileSize (name : String)
  | truncate (name : String) (size : Nat)
  | sync (name : String)
  | close (name : String)
  | drop (name : String)

/-- What an operation answers. -/
inductive StoreAnswer where
  | done (result : Except ProviderError Unit)
  /-- The outcome of a read and the buffer after it. -/
  | read (result : Except ProviderError Unit) (filled : Bytes)
  | fetched (bytes : Option Bytes)
  | size (len : Nat)
  /-- No store has the name. -/
  | nobody

namespace Stores

/-- No store is open yet. -/
def start (p : Platform) : Stores := { state := (∅, p) }

def table (s : Stores) : RegionTable := s.state.1

def platform (s : Stores) : Platform := s.state.2

/-- How many stores are open on the region of a key. -/
def holders (s : Stores) (key : Path.Key) : Nat := s.objects.count (·.holds key)

/-- Operates on the store of a name. -/
def perform (s : Stores) (name : String)
    (op : Store → RegionTable → Platform → StoreAnswer × Store × RegionTable × Platform) :
    StoreAnswer × Stores :=
  match s.act name fun store st =>
    let (answer, store, t, p) := op store st.1 st.2
    (answer, store, (t, p)) with
  | some acted => acted
  | none => (.nobody, s)

/-- Asks the store of a name. -/
def ask (s : Stores) (name : String) (question : Store → RegionTable → Platform → StoreAnswer) :
    StoreAnswer × Stores :=
  ((s.look name fun store st => question store st.1 st.2).getD .nobody, s)

/-- What one event answers and does. -/
def step (s : Stores) : StoreEvent → StoreAnswer × Stores
  | .open name path role setup =>
    let (result, s) := s.enter name (fun st =>
      let (made, t, p) := Store.open path role setup st.1 st.2
      (made, (t, p))) Store.drop
    (.done result, s)
  | .write name offset data => s.perform name fun store t p =>
    let (result, store, t, p) := store.write offset data t p
    (.done result, store, t, p)
  | .read name offset buffer => s.ask name fun store t p =>
    let (result, filled) := store.readInto offset buffer t p
    .read result filled
  | .fetch name offset len => s.ask name fun store t p => .fetched (store.fetch? offset len t p)
  | .fileSize name => s.ask name fun store t _ => .size (store.fileSize t)
  | .truncate name size => s.ask name fun store _ _ => .done (store.truncate size)
  | .sync name => s.perform name fun store t p =>
    let (result, store, p) := store.sync t p
    (.done result, store, t, p)
  | .close name => s.perform name fun store t p =>
    let (result, store, t, p) := store.close t p
    (.done result, store, t, p)
  | .drop name => (.done (.ok ()), s.drop name Store.drop)

/-- The stores after some events. -/
def run (s : Stores) (events : List StoreEvent) : Stores := events.foldl (fun s e => (s.step e).2) s

/-- The bytes of all paths but one, which has other bytes. -/
def record (contents : Path.Key → Bytes) (key : Path.Key) (bytes : Bytes) : Path.Key → Bytes :=
  fun other => if other = key then bytes else contents other

/-- What an event makes of the bytes of each path. Where a region is opened anew they are those of the
file, and each write that stores its bytes lays them over. -/
def account (s : Stores) (contents : Path.Key → Bytes) : StoreEvent → Path.Key → Bytes
  | .open _ path _ _ =>
    if s.table.find? path.key = none then record contents path.key (s.platform.files.bytesAt path)
    else contents
  | .write name offset data =>
    match s.find? name with
    | some store =>
      if store.takes offset data s.table s.platform then
        record contents store.path.key (overlaid (contents store.path.key) offset data)
      else contents
    | none => contents
  | _ => contents

/-- The bytes of each path after some events. -/
def accounts (s : Stores) (contents : Path.Key → Bytes) : List StoreEvent → Path.Key → Bytes
  | [] => contents
  | e :: rest => accounts (s.step e).2 (s.account contents e) rest

/-- An event opens no file that another path or a foreign mapping uses. -/
def Separate (foreign : List FileId) (s : Stores) : StoreEvent → Prop
  | .open _ path _ _ => s.table.Separate foreign path s.platform
  | _ => True

/-- No event of a run does. -/
def Undisturbed (foreign : List FileId) (s : Stores) : List StoreEvent → Prop
  | [] => True
  | e :: rest => s.Separate foreign e ∧ Undisturbed foreign (s.step e).2 rest

/-- The stores of each path are counted, and its region holds what was written. -/
structure Valid (foreign : List FileId) (contents : Path.Key → Bytes) (s : Stores) : Prop where
  counts : s.table.Counts s.holders
  consistent : s.table.Consistent foreign contents s.platform

end Stores

/-! ## What operations keep -/

namespace Store

open RegionTable

variable {s s' : Store} {t t' : RegionTable} {p p' : Platform} {foreign : List FileId}
  {contents : Path.Key → Bytes} {n : Path.Key → Nat}

/-- A store that is opened is counted. -/
theorem open_counts {path : Path} {role : Role} {setup : RegionSetup}
    {result : Except ProviderError Store} (counts : t.Counts n)
    (opened : Store.open path role setup t p = (result, t', p')) :
    (∀ s, result = .ok s → t'.Counts fun key => n key + if s.holds key then 1 else 0) ∧
      ∀ e, result = .error e → t'.Counts n := by
  have correct := open_correct opened
  cases result with
  | error e =>
    obtain ⟨_, rfl, _⟩ := correct
    exact ⟨nofun, fun _ _ => counts⟩
  | ok s =>
    refine ⟨?_, nofun⟩
    rintro _ ⟨⟩
    obtain ⟨held, found, rfl, rfl, rfl⟩ | ⟨absent, r, _, rfl, rfl⟩ := correct
    · have differs := t.differs_insert path.key { held with stores := held.stores + 1 }
      refine counts.put differs (Nat.succ_pos _) fun other => ?_
      by_cases here : other = path.key
      · subst here
        simp [holds, attach, counts.counted _ _ found]
      · simp [holds, attach, here, Ne.symm here]
    · refine counts.put (t.differs_insert path.key ⟨r, 1⟩) Nat.one_pos fun other => ?_
      by_cases here : other = path.key
      · subst here
        have nobody : n path.key = 0 := Nat.eq_zero_of_not_pos fun some =>
          (counts.positive path.key).mpr some absent
        simp [holds, attach, nobody]
      · simp [holds, attach, here, Ne.symm here]

/-- The region of a store that is opened holds what its path led to if it is new. -/
theorem open_keeps {path : Path} {role : Role} {setup : RegionSetup}
    {result : Except ProviderError Store} (consistent : t.Consistent foreign contents p)
    (separate : t.Separate foreign path p)
    (opened : Store.open path role setup t p = (result, t', p')) :
    t'.Consistent foreign
      (if t.find? path.key = none then Stores.record contents path.key (p.files.bytesAt path)
        else contents) p' := by
  have correct := open_correct opened
  cases result with
  | error e =>
    obtain ⟨absent, rfl, e', failed⟩ := correct
    obtain ⟨opening, unmapped, _⟩ := Region.open_correct failed
    rw [if_pos absent]
    exact consistent.not_added absent separate opening unmapped fun other different => if_neg different
  | ok s =>
    obtain ⟨held, found, rfl, rfl, rfl⟩ | ⟨absent, r, opening, rfl, rfl⟩ := correct
    · rw [if_neg (by simp [found])]
      have differs := t.differs_insert path.key { held with stores := held.stores + 1 }
      exact consistent.put found differs (.refl _) (.refl ..) (consistent.alone _ _ found)
        (consistent.holds _ _ found) fun _ _ => rfl
    · obtain ⟨opening, at_path⟩ := Region.open_correct opening
      rw [if_pos absent]
      exact consistent.add absent separate opening at_path (t.differs_insert path.key ⟨r, 1⟩) (if_pos rfl)
        fun other different => if_neg different

/-- Flushing a region changes no byte. -/
theorem settled_keeps {key : Path.Key} {held : HeldRegion} (consistent : t.Consistent foreign contents p)
    (found : t.find? key = some held) (settled : held.region.Settled p p') :
    t.Consistent foreign contents p' := by
  have same : t.Differs key (some ⟨held.region, held.stores⟩) t := fun other => by
    split
    · rename_i here
      rw [here, found]
    · rfl
  have alone := consistent.alone key held found
  exact consistent.put found same (.refl _) settled.onlyFile (settled.alone alone)
    ((settled.validBytes alone.toSound).trans (consistent.holds key held found)) fun _ _ => rfl

/-- A write opens no store and closes none. -/
theorem write_counts {offset : Nat} {data : Bytes} {result : Except ProviderError Unit}
    (counts : t.Counts n) (wrote : s.write offset data t p = (result, s', t', p')) : t'.Counts n := by
  have correct := write_correct wrote
  cases region : s.region? t with
  | none =>
    rw [region] at correct
    obtain ⟨_, _, rfl, _⟩ := correct
    exact counts
  | some r =>
    rw [region] at correct
    obtain ⟨_, r', _, _, rfl, _⟩ := correct
    obtain ⟨_, stores, found⟩ := region?_eq_some_iff.mp region
    have counted : stores = n s.path.key := counts.counted _ _ found
    have positive : 0 < stores := by
      rw [counted, ← counts.positive, found]
      exact nofun
    refine counts.put (differs_setRegion found r') positive fun other => ?_
    split
    · rename_i here
      rw [here]
      exact counted.symm
    · rfl

/-- A write lays its bytes over those of its region, if it stores them. -/
theorem write_keeps {offset : Nat} {data : Bytes} {result : Except ProviderError Unit}
    (consistent : t.Consistent foreign contents p)
    (wrote : s.write offset data t p = (result, s', t', p')) :
    t.NoneOpened p t' p' ∧ t'.Consistent foreign
      (if s.takes offset data t p then
        Stores.record contents s.path.key (overlaid (contents s.path.key) offset data)
      else contents) p' := by
  have correct := write_correct wrote
  cases region : s.region? t with
  | none =>
    rw [region] at correct
    have refused : s.takes offset data t p = false := by simp only [takes, region]
    obtain ⟨_, rfl, rfl, rfl⟩ := correct
    rw [refused]
    exact ⟨.refl .., consistent⟩
  | some r =>
    rw [region] at correct
    obtain ⟨outcome, r', q, writing, rfl, _, flushing⟩ := correct
    obtain ⟨_, _, found⟩ := region?_eq_some_iff.mp region
    have taken : s.takes offset data t p = outcome.isOk := by
      simp only [takes, region, writing]
    have alone := consistent.alone _ _ found
    obtain ⟨kept, sound, _, wrote⟩ := Region.write_correct alone.toSound writing
    have alone' := wrote.alone alone kept sound
    have differs := differs_setRegion found r'
    have settled := flushing.settled alone'.shows
    have names := kept.onlyFile.names.trans settled.onlyFile.names
    refine ⟨.of_differs found differs ?_ names, ?_⟩
    · rintro _ ⟨⟩
      exact kept.same.path
    refine settled_keeps ?_ differs.here settled
    rw [taken]
    cases outcome with
    | error e =>
      have bytes := wrote.validBytes_error alone.toSound sound
      exact consistent.put found differs kept.same kept.onlyFile alone'
        (bytes.trans (consistent.holds _ _ found)) fun _ _ => rfl
    | ok written =>
      have bytes := wrote.validBytes_ok alone.clear sound
      refine consistent.put found differs kept.same kept.onlyFile alone' ?_ fun other different =>
        if_neg different
      rw [bytes, consistent.holds _ _ found]
      exact (if_pos rfl).symm

theorem sync_keeps {result : Except ProviderError Unit} (consistent : t.Consistent foreign contents p)
    (synced : s.sync t p = (result, s', p')) :
    t.NoneOpened p t p' ∧ t.Consistent foreign contents p' := by
  have correct := sync_correct synced
  cases region : s.region? t with
  | none =>
    rw [region] at correct
    obtain ⟨_, rfl, rfl⟩ := correct
    exact ⟨.refl .., consistent⟩
  | some r =>
    rw [region] at correct
    obtain ⟨_, stores, found⟩ := region?_eq_some_iff.mp region
    have settled := correct.settled (consistent.alone _ _ found).shows
    exact ⟨.of_names settled.onlyFile.names, settled_keeps consistent found settled⟩

theorem CloseCorrect.noneOpened (correct : s.CloseCorrect t p t' p')
    (consistent : t.Consistent foreign contents p) : t.NoneOpened p t' p' := by
  obtain ⟨_, rfl, rfl⟩ | ⟨held, _, found, ⟨_, rfl, rfl⟩ | ⟨_, rfl, rfl⟩⟩ := correct
  · exact .refl ..
  · refine .of_differs found (t.differs_insert _ _) ?_ (.refl _)
    rintro _ ⟨⟩
    rfl
  · have closed := (consistent.alone _ _ found).close_closed
    exact .of_differs found (t.differs_erase _) (fun _ none => by cases none) closed.onlyFile.names

/-- A store that is closed is no longer counted. -/
theorem close_counts {result : Except ProviderError Unit} (counts : t.Counts n)
    (member : s.closed = false → 0 < n s.path.key) (closed : s.close t p = (result, s', t', p')) :
    s' = { s with closed := true } ∧ t'.Counts fun key => n key - if s.holds key then 1 else 0 := by
  obtain ⟨rfl, correct⟩ := close_correct closed
  refine ⟨rfl, ?_⟩
  obtain ⟨alone, rfl, rfl⟩ | ⟨held, isOpen, found, ⟨shared, rfl, rfl⟩ | ⟨last, rfl, rfl⟩⟩ := correct
  · have isClosed : s.closed = true := by
      refine eq_true_of_ne_false fun isOpen => ?_
      obtain ⟨held, found⟩ := Option.ne_none_iff_exists'.mp ((counts.positive _).mpr (member isOpen))
      exact alone held isOpen found
    simpa [holds, isClosed] using counts
  · have differs := t.differs_insert s.path.key { held with stores := held.stores - 1 }
    refine counts.put differs (by show 0 < held.stores - 1; omega) fun other => ?_
    by_cases here : other = s.path.key
    · subst here
      simp [holds, isOpen, counts.counted _ _ found]
    · simp [holds, here, Ne.symm here]
  · have one : n s.path.key ≤ 1 := counts.counted _ _ found ▸ last
    refine counts.remove (t.differs_erase s.path.key) fun other => ?_
    by_cases here : other = s.path.key
    · subst here
      simp [holds, isOpen, one]
    · simp [holds, here, Ne.symm here]

theorem CloseCorrect.keeps (correct : s.CloseCorrect t p t' p')
    (consistent : t.Consistent foreign contents p) : t'.Consistent foreign contents p' := by
  obtain ⟨_, rfl, rfl⟩ | ⟨held, _, found, ⟨_, rfl, rfl⟩ | ⟨_, rfl, rfl⟩⟩ := correct
  · exact consistent
  · have differs := t.differs_insert s.path.key { held with stores := held.stores - 1 }
    exact consistent.put found differs (.refl _) (.refl ..) (consistent.alone _ _ found)
      (consistent.holds _ _ found) fun _ _ => rfl
  · exact consistent.remove found (t.differs_erase s.path.key) (consistent.alone _ _ found).close_closed

end Store

/-! ## Steps -/

namespace Stores

variable {s : Stores} {name : String} {store store' : Store} {t : RegionTable} {p : Platform}
  {foreign : List FileId} {contents contents' : Path.Key → Bytes}

theorem perform_of_find? (found : s.find? name = some store)
    {op : Store → RegionTable → Platform → StoreAnswer × Store × RegionTable × Platform}
    {answer : StoreAnswer} (done : op store s.table s.platform = (answer, store', t, p)) :
    s.perform name op = (answer, { s.update name store' with state := (t, p) }) := by
  rw [table, platform] at done
  simp only [perform, Session.act, found, Option.map_some, done]

theorem perform_of_none (absent : s.find? name = none)
    (op : Store → RegionTable → Platform → StoreAnswer × Store × RegionTable × Platform) :
    s.perform name op = (.nobody, s) := by
  simp only [perform, Session.act, absent, Option.map_none]

theorem holders_eq (found : s.find? name = some store) (key : Path.Key) :
    s.holders key = (s.objects.erase name).count (·.holds key) + if store.holds key then 1 else 0 :=
  Keyed.count_of_find? found _

/-- The store of a name has become another one, and the table with it. -/
theorem counts_update (found : s.find? name = some store)
    (counts : t.Counts fun key => s.holders key - (if store.holds key then 1 else 0) +
      if store'.holds key then 1 else 0) :
    t.Counts (holders { s.update name store' with state := (t, p) }) := by
  refine counts.congr fun key => ?_
  rw [holders_eq found, Nat.add_sub_cancel]
  exact Keyed.count_modify found (fun _ => store') (·.holds key)

theorem counts_update_same (found : s.find? name = some store) (same : store.SameStore store')
    (counts : t.Counts s.holders) : t.Counts (holders { s.update name store' with state := (t, p) }) := by
  refine counts_update found (counts.congr fun key => ?_)
  rw [same.holds_eq, holders_eq found, Nat.add_sub_cancel]

/-- An open store is counted. -/
theorem holders_pos (found : s.find? name = some store) (isOpen : store.closed = false) :
    0 < s.holders store.path.key := by
  rw [holders_eq found, if_pos (Store.holds_iff.mpr ⟨isOpen, rfl⟩)]
  exact Nat.succ_pos _

/-- Dropping the store of a name closes it, if there is one. -/
theorem drop_cases (s : Stores) (name : String) :
    s.find? name = none ∧ s.drop name Store.drop = s ∨
    ∃ store result store' t p, s.find? name = some store ∧
      store.close s.table s.platform = (result, store', t, p) ∧
      s.drop name Store.drop = ⟨s.objects.erase name, (t, p)⟩ := by
  cases found : s.find? name with
  | none =>
    simp only [Session.drop, found]
    exact .inl ⟨trivial, trivial⟩
  | some store =>
    rcases closing : store.close s.table s.platform with ⟨result, store', t, p⟩
    refine .inr ⟨store, result, store', t, p, rfl, closing, ?_⟩
    simp only [Session.drop, found]
    have dropped : store.drop s.state = (t, p) := congrArg (·.2.2) closing
    rw [dropped]
    rfl

/-- The store that is dropped is no longer counted. What else the table counts stays. -/
theorem drop_counts (name : String) (extra : Path.Key → Nat)
    (counts : s.table.Counts fun key => s.holders key + extra key) :
    let s' : Stores := s.drop name Store.drop
    (s'.table.Counts fun key => s'.holders key + extra key) ∧ s'.find? name = none := by
  obtain ⟨absent, same⟩ | ⟨store, result, store', t, p, found, closing, dropped⟩ := s.drop_cases name
  · rw [same]
    exact ⟨counts, absent⟩
  · rw [dropped]
    obtain ⟨_, counts'⟩ := Store.close_counts counts
      (fun isOpen => Nat.add_pos_left (holders_pos found isOpen) _) closing
    refine ⟨counts'.congr fun key => ?_, (Keyed.find?_erase ..).trans (if_pos rfl)⟩
    have left : holders ⟨s.objects.erase name, (t, p)⟩ key =
      (s.objects.erase name).count (·.holds key) := rfl
    have whole := holders_eq found key
    omega

theorem drop_consistent (name : String) (consistent : s.table.Consistent foreign contents s.platform) :
    let s' : Stores := s.drop name Store.drop
    s'.table.Consistent foreign contents s'.platform := by
  obtain ⟨_, same⟩ | ⟨store, result, store', t, p, _, closing, dropped⟩ := s.drop_cases name
  · rw [same]
    exact consistent
  · rw [dropped]
    exact (Store.close_correct closing).2.keeps consistent

/-- What becomes of the stores in one event. -/
inductive Stepped (s : Stores) : StoreEvent → Stores → Prop where
  /-- A question, or an operation on a store that is not there. -/
  | idle {e : StoreEvent} (still : ∀ contents, s.account contents e = contents) : Stepped s e s
  | failed {name : String} {path : Path} {role : Role} {setup : RegionSetup} {e : ProviderError}
      {t : RegionTable} {p : Platform}
      (opened : Store.open path role setup s.table s.platform = (.error e, t, p)) :
      Stepped s (.open name path role setup) { s with state := (t, p) }
  | opened {name : String} {path : Path} {role : Role} {setup : RegionSetup} {store : Store}
      {t : RegionTable} {p : Platform}
      (opened : Store.open path role setup s.table s.platform = (.ok store, t, p)) :
      Stepped s (.open name path role setup)
        (Session.put (Session.drop { s with state := (t, p) } name Store.drop) name store)
  | wrote {name : String} {store store' : Store} {offset : Nat} {data : Bytes}
      {result : Except ProviderError Unit} {t : RegionTable} {p : Platform}
      (found : s.find? name = some store)
      (wrote : store.write offset data s.table s.platform = (result, store', t, p)) :
      Stepped s (.write name offset data) { s.update name store' with state := (t, p) }
  | synced {name : String} {store store' : Store} {result : Except ProviderError Unit} {p : Platform}
      (found : s.find? name = some store)
      (synced : store.sync s.table s.platform = (result, store', p)) :
      Stepped s (.sync name) { s.update name store' with state := (s.table, p) }
  | closed {name : String} {store store' : Store} {result : Except ProviderError Unit}
      {t : RegionTable} {p : Platform} (found : s.find? name = some store)
      (closed : store.close s.table s.platform = (result, store', t, p)) :
      Stepped s (.close name) { s.update name store' with state := (t, p) }
  | dropped {name : String} : Stepped s (.drop name) (s.drop name Store.drop)

theorem stepped (s : Stores) (e : StoreEvent) : s.Stepped e (s.step e).2 := by
  cases e with
  | «open» name path role setup =>
    rcases opening : Store.open path role setup s.table s.platform with ⟨result, t, p⟩
    have made := opening
    rw [table, platform] at made
    simp only [step, Session.enter, made]
    cases result with
    | error e => exact .failed opening
    | ok store => exact .opened opening
  | write name offset data =>
    cases found : s.find? name with
    | none =>
      rw [step, perform_of_none found]
      exact .idle fun contents => by simp only [account, found]
    | some store =>
      rcases writing : store.write offset data s.table s.platform with ⟨result, store', t, p⟩
      rw [step, perform_of_find? found (by rw [writing])]
      exact .wrote found writing
  | read name offset buffer => exact .idle fun _ => rfl
  | fetch name offset len => exact .idle fun _ => rfl
  | fileSize name => exact .idle fun _ => rfl
  | truncate name size => exact .idle fun _ => rfl
  | sync name =>
    cases found : s.find? name with
    | none =>
      rw [step, perform_of_none found]
      exact .idle fun _ => rfl
    | some store =>
      rcases syncing : store.sync s.table s.platform with ⟨result, store', p⟩
      rw [step, perform_of_find? found (by rw [syncing])]
      exact .synced found syncing
  | close name =>
    cases found : s.find? name with
    | none =>
      rw [step, perform_of_none found]
      exact .idle fun _ => rfl
    | some store =>
      rcases closing : store.close s.table s.platform with ⟨result, store', t, p⟩
      rw [step, perform_of_find? found (by rw [closing])]
      exact .closed found closing
  | drop name => exact .dropped

variable {s' : Stores} {e : StoreEvent}

/-- The table counts the stores whatever they do. -/
theorem Stepped.counts (stepped : s.Stepped e s') (counts : s.table.Counts s.holders) :
    s'.table.Counts s'.holders := by
  cases stepped with
  | idle => exact counts
  | failed opened => exact (Store.open_counts counts opened).2 _ rfl
  | @opened name path role setup store t p opened =>
    obtain ⟨counts', absent⟩ := drop_counts (s := { s with state := (t, p) }) name
      (fun key => if store.holds key then 1 else 0) ((Store.open_counts counts opened).1 store rfl)
    refine counts'.congr fun key => ?_
    exact (Keyed.count_insert ..).trans (by rw [← Keyed.count_of_none absent]; rfl)
  | wrote found wrote =>
    exact counts_update_same found (Store.write_same wrote) (Store.write_counts counts wrote)
  | synced found synced => exact counts_update_same found (Store.sync_same synced) counts
  | closed found closed =>
    obtain ⟨rfl, counts'⟩ := Store.close_counts counts (holders_pos found) closed
    refine counts_update found ?_
    simpa [Store.holds] using counts'
  | dropped => exact (drop_counts _ (fun _ => 0) counts).1

theorem Stepped.consistent (stepped : s.Stepped e s')
    (consistent : s.table.Consistent foreign contents s.platform) (separate : s.Separate foreign e) :
    s'.table.Consistent foreign (s.account contents e) s'.platform := by
  cases stepped with
  | idle still =>
    rw [still]
    exact consistent
  | failed opened => exact Store.open_keeps consistent separate opened
  | @opened name path role setup store t p opened =>
    exact drop_consistent (s := { s with state := (t, p) }) name
      (Store.open_keeps consistent separate opened)
  | wrote found wrote =>
    simp only [account, found]
    exact (Store.write_keeps consistent wrote).2
  | synced found synced => exact (Store.sync_keeps consistent synced).2
  | closed found closed => exact (Store.close_correct closed).2.keeps consistent
  | dropped => exact drop_consistent _ consistent

/-- What holds of the table and the platform after an event, if it holds before and the operations keep
it. -/
theorem Stepped.induction {I : RegionTable → Platform → Prop} (stepped : s.Stepped e s')
    (consistent : s.table.Consistent foreign contents s.platform) (separate : s.Separate foreign e)
    (base : I s.table s.platform)
    (opens : ∀ name path role setup result t p, e = .open name path role setup →
      Store.open path role setup s.table s.platform = (result, t, p) → I t p)
    (writes : ∀ name (store : Store) offset data result store' t p, e = .write name offset data →
      store.write offset data s.table s.platform = (result, store', t, p) → I t p)
    (syncs : ∀ (store : Store) result store' p, store.sync s.table s.platform = (result, store', p) →
      I s.table p)
    (closes : ∀ contents' (store : Store) t p t' p', t.Consistent foreign contents' p →
      I t p → store.CloseCorrect t p t' p' → I t' p') :
    I s'.table s'.platform := by
  have drops {contents' : Path.Key → Bytes} (s : Stores) (name : String)
      (consistent : s.table.Consistent foreign contents' s.platform) (before : I s.table s.platform) :
      I (table (s.drop name Store.drop)) (platform (s.drop name Store.drop)) := by
    obtain ⟨_, same⟩ | ⟨store, result, store', t, p, _, closing, dropped⟩ := s.drop_cases name
    · rw [same]
      exact before
    · rw [dropped]
      exact closes contents' store _ _ t p consistent before (Store.close_correct closing).2
  cases stepped with
  | idle => exact base
  | failed opened => exact opens _ _ _ _ _ _ _ rfl opened
  | @opened name path role setup store t p opened =>
    exact drops { s with state := (t, p) } name (Store.open_keeps consistent separate opened)
      (opens _ _ _ _ _ _ _ rfl opened)
  | wrote found wrote => exact writes _ _ _ _ _ _ _ _ rfl wrote
  | synced found synced => exact syncs _ _ _ _ synced
  | closed found closed => exact closes _ _ _ _ _ _ consistent base (Store.close_correct closed).2
  | dropped => exact drops s _ consistent base

/-- What one event keeps. -/
theorem step_valid {e : StoreEvent} (valid : s.Valid foreign contents) (separate : s.Separate foreign e) :
    (s.step e).2.Valid foreign (s.account contents e) :=
  ⟨(s.stepped e).counts valid.counts, (s.stepped e).consistent valid.consistent separate⟩

/-- The table counts the stores in every run. -/
theorem run_counts (counts : s.table.Counts s.holders) (events : List StoreEvent) :
    (s.run events).table.Counts (s.run events).holders := by
  induction events generalizing s with
  | nil => exact counts
  | cons e rest ih => exact ih ((s.stepped e).counts counts)

/-- What events in order keep. -/
theorem run_valid {events : List StoreEvent} (valid : s.Valid foreign contents)
    (undisturbed : s.Undisturbed foreign events) :
    (s.run events).Valid foreign (s.accounts contents events) := by
  induction events generalizing s contents with
  | nil => exact valid
  | cons e rest ih => exact ih (step_valid valid undisturbed.1) undisturbed.2

@[simp] theorem run_append (s : Stores) (first second : List StoreEvent) :
    s.run (first ++ second) = (s.run first).run second := List.foldl_append

theorem start_valid (p : Platform) (contents : Path.Key → Bytes) :
    (start p).Valid (p.live.map (·.file)) contents :=
  ⟨RegionTable.counts_empty, RegionTable.consistent_empty contents p⟩

/-! ## Runs on one path -/

/-- An event opens no other path. -/
def OpensOnly (path : Path) : StoreEvent → Prop
  | .open _ other _ _ => other = path
  | _ => True

/-- All regions are of one path, and its file is not foreign. -/
structure OnePath (foreign : List FileId) (path : Path) (t : RegionTable) (p : Platform) : Prop where
  named : ∀ key held, t.find? key = some held → key = path.key ∧ held.region.path = path
  familiar : ∀ id, p.files.target? path = some id → id ∉ foreign

variable {path : Path}

theorem OnePath.separate (onePath : OnePath foreign path t p) : t.Separate foreign path p :=
  fun id target => ⟨onePath.familiar id target, fun key held found different =>
    absurd (onePath.named key held found).1 different⟩

theorem OnePath.of_noneOpened {t' : RegionTable} {p' : Platform} (onePath : OnePath foreign path t p)
    (none : t.NoneOpened p t' p') : OnePath foreign path t' p' := by
  refine ⟨fun key held there => ?_,
    fun id target => onePath.familiar id (by rwa [none.names.target?_eq] at target)⟩
  obtain ⟨before, found, same⟩ := none.regions key held there
  rw [same]
  exact onePath.named key before found

theorem OnePath.of_open {role : Role} {setup : RegionSetup} {result : Except ProviderError Store}
    {t' : RegionTable} {p' : Platform} (onePath : OnePath foreign path t p)
    (opened : Store.open path role setup t p = (result, t', p')) : OnePath foreign path t' p' := by
  have inserted (held : HeldRegion) (here : held.region.path = path) (key : Path.Key)
      (held' : HeldRegion) (there : (t.insert path.key held).find? key = some held') :
      key = path.key ∧ held'.region.path = path := by
    obtain ⟨rfl, same⟩ | ⟨_, before⟩ := (t.differs_insert path.key held).cases there
    · cases same
      exact ⟨rfl, here⟩
    · exact onePath.named key held' before
  have correct := Store.open_correct opened
  cases result with
  | error e =>
    obtain ⟨_, rfl, e', failed⟩ := correct
    have opening := (Region.open_correct failed).1
    exact ⟨onePath.named, by rw [opening.target?_eq]; exact onePath.familiar⟩
  | ok store =>
    obtain ⟨held, found, _, rfl, rfl⟩ | ⟨_, r, regionOpened, _, rfl⟩ := correct
    · exact ⟨inserted _ (onePath.named _ held found).2, onePath.familiar⟩
    · obtain ⟨opening, at_path⟩ := Region.open_correct regionOpened
      exact ⟨inserted _ at_path.path_eq, by rw [opening.target?_eq]; exact onePath.familiar⟩

theorem OnePath.step (valid : s.Valid foreign contents) {e : StoreEvent}
    (onePath : OnePath foreign path s.table s.platform) (only : OpensOnly path e) :
    s.Separate foreign e ∧ OnePath foreign path (s.step e).2.table (s.step e).2.platform := by
  have separate : s.Separate foreign e := by
    cases e with
    | «open» name other role setup =>
      obtain rfl : other = path := only
      exact onePath.separate
    | _ => trivial
  refine ⟨separate, (s.stepped e).induction valid.consistent separate onePath ?_ ?_ ?_ ?_⟩
  · rintro name other role setup result t p rfl opened
    obtain rfl : other = path := only
    exact onePath.of_open opened
  · intro name store offset data result store' t p _ wrote
    exact onePath.of_noneOpened (Store.write_keeps valid.consistent wrote).1
  · intro store result store' p synced
    exact onePath.of_noneOpened (Store.sync_keeps valid.consistent synced).1
  · intro contents' store t p t' p' consistent before closed
    exact before.of_noneOpened (closed.noneOpened consistent)

/-- A run on one path disturbs nothing, and remains on it. -/
theorem OnePath.run {events : List StoreEvent} (valid : s.Valid foreign contents)
    (onePath : OnePath foreign path s.table s.platform) (only : ∀ e ∈ events, OpensOnly path e) :
    s.Undisturbed foreign events ∧
      OnePath foreign path (s.run events).table (s.run events).platform := by
  induction events generalizing s contents with
  | nil => exact ⟨trivial, onePath⟩
  | cons e rest ih =>
    obtain ⟨separate, onePath'⟩ := onePath.step valid (only e List.mem_cons_self)
    obtain ⟨undisturbed, last⟩ := ih (step_valid valid separate) onePath' fun e member =>
      only e (List.mem_cons_of_mem _ member)
    exact ⟨⟨separate, undisturbed⟩, last⟩

/-- At the start of a run on one path nothing but the file that it opens matters. -/
theorem start_onePath (p : Platform) (path : Path)
    (unused : ∀ id, p.files.target? path = some id → p.mappingsOf id = []) :
    OnePath (p.live.map (·.file)) path (start p).table (start p).platform := by
  refine ⟨fun key held there => ?_, fun id target strange => ?_⟩
  · rw [table, start, Keyed.find?_empty] at there
    cases there
  obtain ⟨m, member, rfl⟩ := List.mem_map.mp strange
  have here : m ∈ p.mappingsOf m.file := by simpa [Platform.mappingsOf] using member
  rw [unused _ target] at here
  cases here

end Stores
end MappedStorage
