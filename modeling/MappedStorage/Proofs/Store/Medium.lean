import Mathlib.Data.List.Induction
import MappedStorage.Proofs.Mapping.Medium
import MappedStorage.Proofs.Store.Run

/-!
Which primitive a store flushes with. A store keeps the medium that its region had when the store was
opened, and flushes with that one, on whichever mapping is in place by then. The two agree as long as no
growth changes the medium of a region, and no longer (`run_medium`). Where the medium is not found out by
mapping they always do (`run_agrees`).
-/

namespace MappedStorage

/-- The name of the store that an event writes to or syncs. -/
def StoreEvent.flushes? : StoreEvent → Option String
  | .write name _ _ | .sync name => some name
  | _ => none

/-- The events open regions only with mappers of a kind. -/
def StoreEvent.OpensWith (P : Mapper → Prop) : StoreEvent → Prop
  | .open _ _ _ setup => P setup.mapper
  | _ => True

namespace Stores

/-- Each store that is open has the medium of its region. -/
def Agrees (s : Stores) : Prop :=
  ∀ name store r, s.find? name = some store → store.region? s.table = some r → store.medium = r.medium

/-- A region that is there both before and after has kept its medium. -/
def Steady (s s' : Stores) : Prop :=
  ∀ key held held', s.table.find? key = some held → s'.table.find? key = some held' →
    held'.region.medium = held.region.medium

end Stores

/-! ## What becomes of regions -/

namespace Store

variable {s s' : Store} {t t' : RegionTable} {p p' : Platform} {key : Path.Key} {held' : HeldRegion}

/-- Closing a store leaves the regions that remain as they were. -/
theorem CloseCorrect.region_eq (correct : s.CloseCorrect t p t' p') (there : t'.find? key = some held') :
    ∃ held, t.find? key = some held ∧ held'.region = held.region := by
  obtain ⟨_, rfl, _⟩ | ⟨held, _, found, ⟨_, rfl, _⟩ | ⟨_, rfl, _⟩⟩ := correct
  · exact ⟨held', there, rfl⟩
  · obtain ⟨rfl, same⟩ | ⟨_, before⟩ := (t.differs_insert _ _).cases there
    · cases same
      exact ⟨held, found, rfl⟩
    · exact ⟨held', before, rfl⟩
  · obtain ⟨_, absent⟩ | ⟨_, before⟩ := (t.differs_erase _).cases there
    · cases absent
    · exact ⟨held', before, rfl⟩

/-- Where a store is opened, one region at most is new. -/
theorem open_region {path : Path} {role : Role} {setup : RegionSetup}
    {result : Except ProviderError Store} (opened : Store.open path role setup t p = (result, t', p'))
    (there : t'.find? key = some held') :
    (∃ held, t.find? key = some held ∧ held'.region = held.region) ∨
      t.find? key = none ∧ Region.open path setup p = (.ok held'.region, p') := by
  have correct := open_correct opened
  cases result with
  | error e =>
    obtain ⟨_, rfl, _⟩ := correct
    exact .inl ⟨held', there, rfl⟩
  | ok s =>
    obtain ⟨held, found, _, rfl, _⟩ | ⟨absent, r, opening, _, rfl⟩ := correct
    · obtain ⟨rfl, same⟩ | ⟨_, before⟩ := (t.differs_insert _ _).cases there
      · cases same
        exact .inl ⟨held, found, rfl⟩
      · exact .inl ⟨held', before, rfl⟩
    · obtain ⟨rfl, same⟩ | ⟨_, before⟩ := (t.differs_insert _ _).cases there
      · cases same
        exact .inr ⟨absent, opening⟩
      · exact .inl ⟨held', before, rfl⟩

/-- A store is opened with the medium of its region. -/
theorem open_medium {path : Path} {role : Role} {setup : RegionSetup}
    (opened : Store.open path role setup t p = (.ok s, t', p')) (there : t'.find? s.path.key = some held') :
    s.medium = held'.region.medium := by
  obtain ⟨held, _, rfl, rfl, _⟩ | ⟨_, r, _, rfl, rfl⟩ := open_correct opened
  · rw [show (attach path role held.region).path = path from rfl, (t.differs_insert _ _).here] at there
    cases there
    rfl
  · rw [show (attach path role r).path = path from rfl, (t.differs_insert _ _).here] at there
    cases there
    rfl

/-- A write changes one region at most, by writing to it. -/
theorem write_region {offset : Nat} {data : Bytes} {result : Except ProviderError Unit}
    (wrote : s.write offset data t p = (result, s', t', p')) (there : t'.find? key = some held') :
    ∃ held, t.find? key = some held ∧
      (held'.region = held.region ∨ held'.region = (held.region.write offset data p).2.1) := by
  have correct := write_correct wrote
  cases region : s.region? t with
  | none =>
    rw [region] at correct
    obtain ⟨_, _, rfl, _⟩ := correct
    exact ⟨held', there, .inl rfl⟩
  | some r =>
    rw [region] at correct
    obtain ⟨_, r', _, writing, rfl, _⟩ := correct
    obtain ⟨_, n, found⟩ := region?_eq_some_iff.mp region
    obtain ⟨rfl, same⟩ | ⟨_, before⟩ := (RegionTable.differs_setRegion found r').cases there
    · cases same
      exact ⟨⟨r, n⟩, found, .inr (by rw [writing])⟩
    · exact ⟨held', before, .inl rfl⟩

/-- The flushes of a write have the medium of the store, and are on the mapping that its region has
then. -/
theorem write_flushes {offset : Nat} {data : Bytes} {result : Except ProviderError Unit}
    (wrote : s.write offset data t p = (result, s', t', p')) :
    p.FlushesOn s.medium ((s.region? t').bind (·.mapped)) p' := by
  have correct := write_correct wrote
  cases region : s.region? t with
  | none =>
    rw [region] at correct
    obtain ⟨_, _, _, rfl⟩ := correct
    exact (Platform.NoFlush.refl _).flushesOn
  | some r =>
    rw [region] at correct
    obtain ⟨outcome, r', q, writing, rfl, _, flushing⟩ := correct
    obtain ⟨isOpen, n, found⟩ := region?_eq_some_iff.mp region
    have quiet := r.write_noFlush offset data p
    rw [writing] at quiet
    have here : s.region? (t.setRegion s.path.key r') = some r' :=
      region?_eq_some_iff.mpr ⟨isOpen, n, (RegionTable.differs_setRegion found r').here⟩
    rw [here, Option.bind_some]
    refine quiet.flushesOn.trans ?_
    rw [FlushCorrect.eq_def] at flushing
    cases outcome with
    | error e =>
      obtain ⟨rfl, _⟩ := flushing
      exact (Platform.NoFlush.refl _).flushesOn
    | ok written =>
      cases role : s.role with
      | data =>
        simp only [role] at flushing
        obtain ⟨rfl, _⟩ := flushing
        exact (Platform.NoFlush.refl _).flushesOn
      | log =>
        simp only [role] at flushing
        obtain ⟨flushed, flush_eq, _⟩ := flushing
        have flushes := r'.flush_flushes ⟨s.medium, written⟩ q
        rwa [flush_eq] at flushes

theorem sync_flushes {result : Except ProviderError Unit} (synced : s.sync t p = (result, s', p')) :
    p.FlushesOn s.medium ((s.region? t).bind (·.mapped)) p' := by
  have correct := sync_correct synced
  cases region : s.region? t with
  | none =>
    rw [region] at correct
    obtain ⟨_, _, rfl⟩ := correct
    exact (Platform.NoFlush.refl _).flushesOn
  | some r =>
    rw [region] at correct
    obtain ⟨_, flushing⟩ := correct
    cases role : s.role with
    | log =>
      rw [role] at flushing
      obtain ⟨rfl, _⟩ := flushing
      exact (Platform.NoFlush.refl _).flushesOn
    | data =>
      rw [role] at flushing
      obtain ⟨flushed, flush_eq, _⟩ := flushing
      have flushes := r.flush_flushes ⟨s.medium, ⟨0, r.used⟩⟩ p
      rwa [flush_eq] at flushes

end Store

/-! ## Steps -/

namespace Stores

variable {s s' : Stores} {e : StoreEvent} {name : String} {store' : Store} {key : Path.Key}
  {held held' : HeldRegion}

theorem drop_region {name : String} (there : (table (s.drop name Store.drop)).find? key = some held') :
    ∃ held, s.table.find? key = some held ∧ held'.region = held.region := by
  obtain ⟨_, same⟩ | ⟨store, result, store', t, p, _, closing, dropped⟩ := s.drop_cases name
  · rw [same] at there
    exact ⟨held', there, rfl⟩
  · rw [dropped] at there
    exact (Store.close_correct closing).2.region_eq there

theorem find?_drop {name other : String} (different : other ≠ name) :
    (s.drop name Store.drop).find? other = s.find? other := by
  obtain ⟨_, same⟩ | ⟨store, result, store', t, p, _, _, dropped⟩ := s.drop_cases name
  · rw [same]
  · rw [dropped]
    exact (Keyed.find?_erase ..).trans (if_neg different)

theorem find?_update {name other : String} {store store' : Store} {st : RegionTable × Platform}
    (found : s.find? name = some store) :
    Session.find? { s.update name store' with state := st } other =
      if other = name then some store' else s.find? other := by
  refine (Keyed.find?_modify ..).trans ?_
  split
  · rename_i here
    rw [here]
    exact congrArg (Option.map _) found
  · rfl

/-- A store that is found once a store has become another one was there, as the same or as that one. -/
theorem find?_update_same {given : String} {store store'' : Store} {st : RegionTable × Platform}
    (there : s.find? given = some store) (same : store.SameStore store'')
    (found : Session.find? { s.update given store'' with state := st } name = some store') :
    ∃ store, s.find? name = some store ∧ store.SameStore store' := by
  rw [find?_update there] at found
  split at found
  · rename_i here
    cases found
    exact ⟨store, here ▸ there, same⟩
  · exact ⟨store', found, .refl _⟩

/-- A region is as it was, or has been written to, or is opened by the event. -/
theorem Stepped.region (stepped : s.Stepped e s') (there : s'.table.find? key = some held') :
    (∃ held, s.table.find? key = some held ∧ (held'.region = held.region ∨
      ∃ offset data, held'.region = (held.region.write offset data s.platform).2.1)) ∨
    s.table.find? key = none ∧ ∃ name path role setup p', e = .open name path role setup ∧
      Region.open path setup s.platform = (.ok held'.region, p') := by
  cases stepped with
  | idle => exact .inl ⟨held', there, .inl rfl⟩
  | failed opened =>
    obtain ⟨held, before, same⟩ | ⟨absent, opening⟩ := Store.open_region opened there
    · exact .inl ⟨held, before, .inl same⟩
    · exact .inr ⟨absent, _, _, _, _, _, rfl, opening⟩
  | @opened name path role setup store t p opened =>
    obtain ⟨between, there, same⟩ := drop_region (s := { s with state := (t, p) }) there
    obtain ⟨held, before, same'⟩ | ⟨absent, opening⟩ := Store.open_region opened there
    · exact .inl ⟨held, before, .inl (same.trans same')⟩
    · exact .inr ⟨absent, _, _, _, _, _, rfl, same ▸ opening⟩
  | wrote _ wrote =>
    obtain ⟨held, before, same | written⟩ := Store.write_region wrote there
    · exact .inl ⟨held, before, .inl same⟩
    · exact .inl ⟨held, before, .inr ⟨_, _, written⟩⟩
  | synced => exact .inl ⟨held', there, .inl rfl⟩
  | closed _ closed =>
    obtain ⟨held, before, same⟩ := (Store.close_correct closed).2.region_eq there
    exact .inl ⟨held, before, .inl same⟩
  | dropped =>
    obtain ⟨held, before, same⟩ := drop_region there
    exact .inl ⟨held, before, .inl same⟩

/-- A store that is open was open before, or is opened by the event with the medium of its region. -/
theorem Stepped.store (stepped : s.Stepped e s') (found : s'.find? name = some store')
    (isOpen : store'.closed = false) :
    (∃ store, s.find? name = some store ∧ store.SameStore store') ∨
      (∀ held, s.table.find? store'.path.key = some held → store'.medium = held.region.medium) ∧
        ∀ held', s'.table.find? store'.path.key = some held' → store'.medium = held'.region.medium := by
  cases stepped with
  | idle => exact .inl ⟨store', found, .refl _⟩
  | failed => exact .inl ⟨store', found, .refl _⟩
  | @opened given path role setup store t p opened =>
    rw [show Session.find? (Session.put _ given store) name = _ from Keyed.find?_insert ..] at found
    split at found
    · cases found
      refine .inr ⟨fun held there => ?_, fun held' there => ?_⟩
      · obtain ⟨shared, here, rfl, _⟩ | ⟨absent, r, _, rfl, _⟩ := Store.open_correct opened
        · rw [show (Store.attach path role shared.region).path = path from rfl, here] at there
          cases there
          rfl
        · rw [show (Store.attach path role r).path = path from rfl, absent] at there
          cases there
      · obtain ⟨held, before, same⟩ := drop_region (s := { s with state := (t, p) }) there
        rw [same]
        exact Store.open_medium opened before
    · rename_i different
      exact .inl ⟨store', (find?_drop (s := { s with state := (t, p) }) different).symm.trans found,
        .refl _⟩
  | wrote there wrote => exact .inl (find?_update_same there (Store.write_same wrote) found)
  | synced there synced => exact .inl (find?_update_same there (Store.sync_same synced) found)
  | closed there closed =>
    rw [find?_update there] at found
    split at found
    · cases found
      rw [(Store.close_correct closed).1] at isOpen
      cases isOpen
    · exact .inl ⟨store', found, .refl _⟩
  | @dropped given =>
    by_cases here : name = given
    · rw [here] at found
      obtain ⟨absent, same⟩ | ⟨store, result, store', t, p, _, _, dropped⟩ := s.drop_cases given
      · rw [same, absent] at found
        cases found
      · rw [dropped] at found
        have gone := (Keyed.find?_erase s.objects given given).trans (if_pos rfl)
        cases found.symm.trans gone
    · exact .inl ⟨store', (find?_drop here).symm.trans found, .refl _⟩

theorem Stepped.agrees (stepped : s.Stepped e s') (counts : s.table.Counts s.holders)
    (agrees : s.Agrees) (steady : s.Steady s') : s'.Agrees := by
  intro name store' r' found region
  obtain ⟨isOpen, n', there⟩ := Store.region?_eq_some_iff.mp region
  obtain ⟨store, before, same⟩ | ⟨_, opened⟩ := stepped.store found isOpen
  · have wasOpen : store.closed = false := same.closed ▸ isOpen
    obtain ⟨held, here⟩ :=
      Option.ne_none_iff_exists'.mp ((counts.positive _).mpr (holders_pos before wasOpen))
    have medium := agrees name store held.region before
      (Store.region?_eq_some_iff.mpr ⟨wasOpen, held.stores, here⟩)
    rw [same.medium, medium]
    exact (steady _ held _ here (same.path ▸ there)).symm
  · exact opened _ there

/-- Each region that remains has a store, which tells whether its medium has changed. -/
theorem Stepped.steady (stepped : s.Stepped e s') (counts : s'.table.Counts s'.holders)
    (agrees : s.Agrees) (agrees' : s'.Agrees) : s.Steady s' := by
  intro key held held' before after
  have some : 0 < s'.holders key := (counts.positive key).mp (by rw [after]; exact nofun)
  obtain ⟨name, store', found, holds⟩ := Keyed.count_pos_iff.mp some
  obtain ⟨isOpen, rfl⟩ := Store.holds_iff.mp holds
  have medium' := agrees' name store' held'.region found
    (Store.region?_eq_some_iff.mpr ⟨isOpen, held'.stores, after⟩)
  obtain ⟨store, there, same⟩ | ⟨opened, _⟩ := stepped.store found isOpen
  · have medium := agrees name store held.region there
      (Store.region?_eq_some_iff.mpr ⟨same.closed ▸ isOpen, held.stores, same.path ▸ before⟩)
    rw [← medium', ← medium, same.medium]
  · rw [← medium', opened held before]

/-! ## Runs -/

theorem run_snoc (s : Stores) (events : List StoreEvent) (e : StoreEvent) :
    s.run (events ++ [e]) = ((s.run events).step e).2 := s.run_append events [e]

theorem start_counts (p : Platform) : (start p).table.Counts (start p).holders :=
  RegionTable.counts_empty

theorem run_agrees_iff (p : Platform) (events : List StoreEvent) :
    (∀ before, before <+: events → ((start p).run before).Agrees) ↔
      ∀ before e, before ++ [e] <+: events →
        ((start p).run before).Steady ((start p).run (before ++ [e])) := by
  have counts := run_counts (start_counts p)
  constructor
  · intro agrees before e within
    have first := agrees before ((List.prefix_append _ _).trans within)
    have second := agrees (before ++ [e]) within
    have counted := counts (before ++ [e])
    rw [run_snoc] at second counted ⊢
    exact (stepped _ e).steady counted first second
  · intro steady before within
    induction before using List.reverseRecOn with
    | nil =>
      intro name store r found
      cases found
    | append_singleton before e ih =>
      have kept := steady before e within
      rw [run_snoc] at kept ⊢
      exact (stepped _ e).agrees (counts before) (ih ((List.prefix_append _ _).trans within)) kept

/-- The region of each path is labelled in every run. -/
theorem run_labelled (p : Platform) (events : List StoreEvent)
    (there : ((start p).run events).table.find? key = some held) : held.region.Labelled := by
  induction events using List.reverseRecOn generalizing key held with
  | nil => cases there
  | append_singleton events e ih =>
    rw [run_snoc] at there
    obtain ⟨before, found, same | ⟨offset, data, written⟩⟩ | ⟨_, _, _, _, _, _, _, opening⟩ :=
      (stepped _ e).region there
    · rw [same]
      exact ih found
    · rw [written]
      exact (Region.write_labelled (ih found) ..).1
    · exact (Region.open_labelled opening).1

/-- The regions of a run have the mappers that it opens them with. -/
theorem run_opensWith {P : Mapper → Prop} (p : Platform) (events : List StoreEvent)
    (all : ∀ e ∈ events, e.OpensWith P) (there : ((start p).run events).table.find? key = some held) :
    P held.region.setup.mapper := by
  induction events using List.reverseRecOn generalizing key held with
  | nil => cases there
  | append_singleton events e ih =>
    have earlier (e : StoreEvent) (member : e ∈ events) := all e (List.mem_append_left _ member)
    rw [run_snoc] at there
    obtain ⟨before, found, same | ⟨offset, data, written⟩⟩ | ⟨_, _, _, _, _, _, rfl, opening⟩ :=
      (stepped _ e).region there
    · rw [same]
      exact ih earlier found
    · rw [written, (Region.write_labelled (run_labelled p events found) ..).2]
      exact ih earlier found
    · rw [(Region.open_labelled opening).2]
      exact all _ (List.mem_append_right _ List.mem_cons_self)

/-- A store that writes or syncs flushes with its own medium. -/
theorem step_flushes {store : Store} (flushes : e.flushes? = some name) (found : s.find? name = some store) :
    s.platform.FlushesOn store.medium ((store.region? (s.step e).2.table).bind (·.mapped))
      (s.step e).2.platform := by
  cases e with
  | write given offset data =>
    cases flushes
    rcases writing : store.write offset data s.table s.platform with ⟨result, store', t, p⟩
    rw [step, perform_of_find? found (by rw [writing])]
    exact Store.write_flushes writing
  | sync given =>
    cases flushes
    rcases syncing : store.sync s.table s.platform with ⟨result, store', p⟩
    rw [step, perform_of_find? found (by rw [syncing])]
    exact Store.sync_flushes syncing
  | _ => cases flushes

/-- Whatever stores do, a write or a sync flushes with the medium of the store, on the mapping that its
region has then, and the medium of the region is that of the mapping. The two are the same all along
if and only if no event changes the medium of a region. -/
theorem run_medium (p : Platform) (events : List StoreEvent) :
    let after : List StoreEvent → Stores := (start p).run
    (∀ before e name store, e.flushes? = some name → (after before).find? name = some store →
      (after before).platform.FlushesOn store.medium
        ((store.region? (after (before ++ [e])).table).bind (·.mapped))
        (after (before ++ [e])).platform) ∧
    (∀ before key held, (after before).table.find? key = some held → held.region.Labelled) ∧
    ((∀ before, before <+: events → (after before).Agrees) ↔
      ∀ before e, before ++ [e] <+: events → (after before).Steady (after (before ++ [e]))) := by
  intro after
  refine ⟨fun before e name store flushes found => ?_, fun before key held there => ?_,
    run_agrees_iff p events⟩
  · rw [show after (before ++ [e]) = _ from run_snoc ..]
    exact step_flushes flushes found
  · exact run_labelled p before there

/-- A log on persistent memory that grows onto a file without it goes on to write back cache lines. -/
theorem grown_log_keeps_primitive :
    let p : Platform :=
      { Platform.empty with plan := { synchronous := [.granted, .refused Errno.notSupported] } }
    let s : Stores := (start p).run [.open "log" ⟨[0x78]⟩ .log { initialCapacity := 16 },
      .write "log" 16 #[1, 2, 3, 4, 5]]
    let region : Option Region := (s.find? "log").bind (·.region? s.table)
    (s.find? "log").map (·.medium) = some .persistent ∧ region.map (·.medium) = some .emulated ∧
      s.platform.calls.head? = (region.bind (·.mapped)).map (.flush .persistent · 16 5 none) := by
  refine ⟨?_, ?_, ?_⟩ <;> cbv

/-- Where the medium is not found out by mapping, stores always have that of their region. -/
theorem run_agrees (p : Platform) (events : List StoreEvent)
    (fixed : ∀ e ∈ events, e.OpensWith fun m => ¬ m.Detects) : ((start p).run events).Agrees := by
  refine (run_agrees_iff p events).mpr (fun before e within => ?_) events List.prefix_rfl
  intro key held held' there there'
  have labelled := run_labelled p before there
  have here : ∀ e ∈ before, e.OpensWith fun m => ¬ m.Detects := fun e member =>
    fixed e (within.subset (List.mem_append_left _ member))
  have assumed := labelled.of_not_detects (run_opensWith p before here there)
  rw [run_snoc] at there'
  obtain ⟨again, found, same | ⟨offset, data, written⟩⟩ | ⟨absent, _⟩ := (stepped _ e).region there'
  · rw [there] at found
    cases found
    rw [same]
  · rw [there] at found
    cases found
    obtain ⟨labelled', setup⟩ := Region.write_labelled labelled offset data ((start p).run before).platform
    rw [written, assumed, ← setup]
    exact labelled'.of_not_detects (setup ▸ run_opensWith p before here there)
  · rw [there] at absent
    cases absent

end Stores
end MappedStorage
