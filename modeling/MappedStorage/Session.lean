import MappedStorage.Keyed

/-!
Objects in use, each under a name, and the state that they share. An operation takes the object
of a name and the shared state and hands both back; an object that is given up is dropped, which
may change the shared state.
-/

namespace MappedStorage

/-- Objects under names with the state that they share. -/
structure Session (α σ : Type) where
  objects : Keyed String α := ∅
  state : σ

namespace Session

variable {α σ ρ ε : Type}

/-- The object of a name. -/
def find? (s : Session α σ) (name : String) : Option α :=
  s.objects.find? name

/-- The session without the object of a name. -/
def forget (s : Session α σ) (name : String) : Session α σ :=
  { s with objects := s.objects.erase name }

/-- The session with an object under a name. -/
def put (s : Session α σ) (name : String) (object : α) : Session α σ :=
  { s with objects := s.objects.insert name object }

/-- The session with the object of a name replaced where it stands. -/
def update (s : Session α σ) (name : String) (object : α) : Session α σ :=
  { s with objects := s.objects.modify name fun _ => object }

/-- Operates on the object of a name. -/
def act (s : Session α σ) (name : String) (op : α → σ → ρ × α × σ) : Option (ρ × Session α σ) :=
  (s.find? name).map fun object =>
    let (result, object, state) := op object s.state
    (result, { s.update name object with state })

/-- Looks at the object of a name. -/
def look (s : Session α σ) (name : String) (op : α → σ → ρ) : Option ρ :=
  (s.find? name).map fun object => op object s.state

/-- Drops the object of a name, if there is one. -/
def drop (s : Session α σ) (name : String) (dropObject : α → σ → σ) : Session α σ :=
  match s.find? name with
  | none => s
  | some object => { s.forget name with state := dropObject object s.state }

/-- Puts a new object under a name. The object that had the name is dropped once the new one is
there, and stays if there is none. -/
def enter (s : Session α σ) (name : String) (make : σ → Except ε α × σ)
    (dropObject : α → σ → σ) : Except ε Unit × Session α σ :=
  match make s.state with
  | (.error e, state) => (.error e, { s with state })
  | (.ok object, state) =>
    (.ok (), ({ s with state }.drop name dropObject).put name object)

end Session
end MappedStorage
