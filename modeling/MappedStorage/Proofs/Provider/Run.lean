import MappedStorage.Proofs.Session
import MappedStorage.Provider.Basic

/-!
Runs of a provider. An event opens a file, asks one to do something, or drops it; or it is something
that the provider does for a path, or that happens to the files from outside. Questions that files
answer change nothing, so they are left out.
-/

namespace MappedStorage

/-- What an open file is asked to do. -/
inductive FileRequest where
  | write (offset : Nat) (data : Bytes)
  | truncate (size : Nat)
  | sync (flags : SyncFlags)
  | lock (level : LockLevel)
  | unlock (level : LockLevel)
  | lockSlots (offset n : Nat) (op : SlotLockOp)
  | requestSlot (index slotSize : Nat) (extend : Bool)
  /-- Stores one byte all over a slot of the shared index. -/
  | fillSlot (slot : Slot) (byte : UInt8)
  /-- Stores a word of a slot of the shared index. -/
  | storeWord (slot : Slot) (i word : Nat)
  | barrier
  | unmapIndex (delete : Bool)
  | close

/-- What happens to a provider. A file that is opened takes the place of the one that had the name,
which is dropped. -/
inductive ProviderEvent where
  | «open» (name : String) (path : Option Path) (flags : OpenFlags)
  | ask (name : String) (request : FileRequest)
  | drop (name : String)
  /-- The size of a file is asked for, which opens and closes it. -/
  | sizeOf (path : Option Path) (flags : OpenFlags)
  | delete (path : Path) (syncing : Bool)
  /-- The files are changed by others. -/
  | outside (files : FileSystem)

namespace OpenFile

/-- Stores one byte all over a slot, if it is mapped. -/
def fillSlot (f : OpenFile) (slot : Slot) (byte : UInt8) (s : Shared) : Shared :=
  match f.index.bind (·.fillSlot? slot byte s.platform) with
  | some (_, platform) => { s with platform }
  | none => s

/-- Stores a word of a slot, if it is mapped. -/
def storeWord (f : OpenFile) (slot : Slot) (i word : Nat) (s : Shared) : Shared :=
  match f.wordsOf? slot with
  | some words =>
    if i < words.count then { s with platform := words.store i word s.platform } else s
  | none => s

/-- What a request makes of a file and of what it shares with others. -/
def serve (f : OpenFile) (request : FileRequest) (s : Shared) : OpenFile × Shared :=
  match request with
  | .write offset data => (f.write offset data s).2
  | .truncate _ => (f, s)
  | .sync flags => (f.sync flags s).2
  | .lock level => (f.lock level s).2
  | .unlock level => f.unlock level s
  | .lockSlots offset n op => (f.lockSlots offset n op s).2
  | .requestSlot index slotSize extend => (f.requestSlot index slotSize extend s).2
  | .fillSlot slot byte => (f, f.fillSlot slot byte s)
  | .storeWord slot i word => (f, f.storeWord slot i word s)
  | .barrier => (f, f.barrier s)
  | .unmapIndex delete => (f.unmapIndex delete s).2
  | .close => (f.close s).2

end OpenFile

/-- Open files by name, with what they share. -/
abbrev OpenFiles := Session OpenFile Shared

namespace OpenFiles

/-- No file is open yet. -/
def start (p : Platform) : OpenFiles := { state := { platform := p } }

/-- The files after one event. -/
def step (v : Provider) (s : OpenFiles) : ProviderEvent → OpenFiles
  | .open name path flags => (s.enter name (v.openFile path flags) OpenFile.drop).2
  | .ask name request => ((s.act name fun f st => ((), f.serve request st)).map (·.2)).getD s
  | .drop name => s.drop name OpenFile.drop
  | .sizeOf path flags => { s with state := (v.sizeOf path flags s.state).2 }
  | .delete path syncing => { s with state := (v.delete path syncing s.state).2 }
  | .outside files =>
    { s with state := { s.state with platform := { s.state.platform with files } } }

/-- The files after some events. -/
def run (v : Provider) (s : OpenFiles) (events : List ProviderEvent) : OpenFiles :=
  events.foldl (step v) s

/-- Every event of a run keeps to a rule. -/
def Follows (v : Provider) (rule : OpenFiles → ProviderEvent → Prop) (s : OpenFiles) :
    List ProviderEvent → Prop
  | [] => True
  | e :: rest => rule s e ∧ Follows v rule (s.step v e) rest

variable {v : Provider} {s : OpenFiles} {name : String} {f : OpenFile}

theorem step_ask (found : s.find? name = some f) (request : FileRequest) :
    s.step v (.ask name request) =
      { s.update name (f.serve request s.state).1 with state := (f.serve request s.state).2 } := by
  simp only [step, Session.act, found, Option.map_some, Option.getD_some]

theorem step_ask_of_none (absent : s.find? name = none) (request : FileRequest) :
    s.step v (.ask name request) = s := by
  simp only [step, Session.act, absent, Option.map_none, Option.getD_none]

/-- What every event keeps under a rule holds after a run that follows it. -/
theorem run_induction {P : OpenFiles → Prop} {rule : OpenFiles → ProviderEvent → Prop}
    (kept : ∀ s e, P s → rule s e → P (s.step v e)) {events : List ProviderEvent}
    (follows : s.Follows v rule events) (holds : P s) : P (s.run v events) := by
  induction events generalizing s with
  | nil => exact holds
  | cons e rest ih => exact ih follows.2 (kept s e holds follows.1)

theorem follows_append {rule : OpenFiles → ProviderEvent → Prop} {before after : List ProviderEvent}
    (follows : s.Follows v rule (before ++ after)) :
    s.Follows v rule before ∧ (s.run v before).Follows v rule after := by
  induction before generalizing s with
  | nil => exact ⟨trivial, follows⟩
  | cons e rest ih =>
    obtain ⟨first, rest_follows⟩ := follows
    obtain ⟨left, right⟩ := ih rest_follows
    exact ⟨⟨first, left⟩, right⟩

end OpenFiles
end MappedStorage
