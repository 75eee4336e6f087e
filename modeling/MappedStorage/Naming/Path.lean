import MappedStorage.Text.Utf8

/-!
Paths. A path is any sequence of bytes; its components are what the bytes say once repeated
separators and single dots are left out. Two paths with the same components are the same key
(`Path.key`), whatever their bytes.
-/

namespace MappedStorage

/-- A single name in a directory. -/
abbrev Name := List UInt8

/-- A path, verbatim. -/
structure Path where
  bytes : List UInt8
  deriving DecidableEq

/-- A step of a path. -/
inductive Component where
  /-- The root directory, with which an absolute path begins. -/
  | root
  /-- A dot with which a relative path begins. -/
  | here
  /-- Two dots: the directory above. -/
  | up
  | name (name : Name)
  deriving DecidableEq

namespace Path

/-- The byte between names, a slash. -/
def separator : UInt8 := 0x2F

/-- The byte of a dot. -/
def dot : UInt8 := 0x2E

def ofString (s : String) : Path := ⟨Utf8.encode s⟩

/-- The text of a path in messages. -/
def display (p : Path) : String := Utf8.lossy p.bytes

/-- A path that begins at the root. -/
def isAbsolute (p : Path) : Bool := p.bytes.head? == some separator

/-- The bytes between separators, empty ones included. -/
def pieces : List UInt8 → List (List UInt8)
  | [] => [[]]
  | b :: rest =>
    if b = separator then [] :: pieces rest
    else match pieces rest with
      | [] => [[b]]
      | piece :: more => (b :: piece) :: more

/-- What a piece says, if it says anything: empty pieces and dots do not. -/
def component? (piece : List UInt8) : Option Component :=
  if piece = [] ∨ piece = [dot] then none
  else if piece = [dot, dot] then some .up
  else some (.name piece)

/-- What a path begins with, besides its names. -/
def start (p : Path) : List Component :=
  if p.isAbsolute then [.root]
  else if (pieces p.bytes).head? = some [dot] then [.here]
  else []

/-- The steps of a path, in order. -/
def components (p : Path) : List Component :=
  p.start ++ (pieces p.bytes).filterMap component?

/-- The last name of a path, unless it ends otherwise. -/
def fileName? (p : Path) : Option Name :=
  match p.components.getLast? with
  | some (.name name) => some name
  | _ => none

/-- Pieces without those at the end that say nothing. -/
def trimPieces (parts : List (List UInt8)) : List (List UInt8) :=
  (parts.reverse.dropWhile fun piece => (component? piece).isNone).reverse

/-- What a path says up to its last step, which is no path at all if there are no steps. A
relative path of one step leaves the empty path. -/
def parent? (p : Path) : Option Path :=
  match pieces p.bytes with
  | [] => none
  | first :: rest =>
    match (trimPieces rest).reverse with
    | [] => if first = [] then none else some ⟨[]⟩
    | _ :: above =>
      let kept := first :: trimPieces above.reverse
      if kept = [[]] then some ⟨[separator]⟩
      else some ⟨[separator].intercalate kept⟩

/-- The paths above a path, the nearest first, so many at most. -/
def above : Nat → Path → List Path
  | 0, _ => []
  | count + 1, p =>
    match p.parent? with
    | none => []
    | some parent => parent :: above count parent

/-- All paths above a path, the nearest first. There is one for each step at most. -/
def ancestors (p : Path) : List Path := above p.components.length p

/-- A path followed from another: an absolute one stands for itself. -/
def join (p q : Path) : Path :=
  if q.isAbsolute then q
  else if p.bytes = [] ∨ p.bytes.getLast? = some separator then ⟨p.bytes ++ q.bytes⟩
  else ⟨p.bytes ++ separator :: q.bytes⟩

/-- A path with bytes after its end. -/
def append (p : Path) (bytes : List UInt8) : Path := ⟨p.bytes ++ bytes⟩

/-- The absolute path of some names. -/
def ofNames : List Name → Path
  | [] => ⟨[separator]⟩
  | names => ⟨names.flatMap (separator :: ·)⟩

/-- What makes two paths the same key of a table. -/
abbrev Key := List Component

/-- The key of a path. -/
abbrev key (p : Path) : Key := p.components

end Path
end MappedStorage
