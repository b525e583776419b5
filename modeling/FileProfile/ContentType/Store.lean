import FileProfile.ContentType.Naming
import FileProfile.ContentType.Ancestry
import FileProfile.Failure

/-!
The store of content types in use.

Every lookup gives a counted reference to a handle. While a handle is referenced, lookups of its
name find it in the intern table, so that comparing handles is comparing names. The store itself is
referenced by its owner until it is shut down and once for every reference to a handle; it is torn
down when its own count reaches zero.

Handles are numbered in the order of their creation and keep their number for good.
-/

namespace FileProfile

/-- The number of a handle. -/
abbrev HandleId := Nat

/-- A content type in use. -/
structure Handle where
  name : TypeName
  references : Int
deriving DecidableEq, Repr

structure TypeStore where
  /-- Well-known extensions of file names, in lower case and without their dot. -/
  extensions : Table Text
  rules : Rules
  overrides : Table Text
  references : Int := 1
  isShut : Bool := false
  handles : List Handle := []
  interned : List (TypeName × HandleId) := []
deriving Repr

namespace TypeStore

/-- The store with its owner's reference alone. -/
def new (extensions : Table Text) (rules : Rules) (overrides : Table Text) : TypeStore :=
  { extensions, rules, overrides }

def isTornDown (s : TypeStore) : Bool := s.references ≤ 0

/-- Whether lookups are answered. -/
def isOpen (s : TypeStore) : Bool := !s.isShut && !s.isTornDown

def nameOf (s : TypeStore) (h : HandleId) : TypeName :=
  ((s.handles[h]?).map Handle.name).getD (.text [])

def referencesOf (s : TypeStore) (h : HandleId) : Int :=
  ((s.handles[h]?).map Handle.references).getD 0

/-- The failure of using a handle after its release. -/
def released (s : TypeStore) (h : HandleId) : Failure :=
  .disposed ("Content type " ++ (s.nameOf h).spelled)

/-- The failure of using a store that is not open. -/
def closed : Failure := .disposed "ContentTypeDatabase"

/-- Changes the reference count of a handle. -/
def count (s : TypeStore) (h : HandleId) (change : Int) : TypeStore :=
  { s with handles := s.handles.modify h fun x => { x with references := x.references + change } }

/-- Takes another reference to a handle. A released handle may be taken up again as long as the
store is not torn down; it is not interned again. -/
def ref (s : TypeStore) (h : HandleId) : Except Failure TypeStore :=
  if s.referencesOf h ≤ 0 ∧ s.isTornDown then .error (s.released h)
  else .ok { s.count h 1 with references := s.references + 1 }

/-- Takes a handle out of the intern table if it stands there. -/
def forget (s : TypeStore) (h : HandleId) : TypeStore :=
  { s with interned := s.interned.filter fun entry => entry ≠ (s.nameOf h, h) }

/-- Gives up a reference to the store; the last one tears it down. -/
def release (s : TypeStore) : TypeStore :=
  { s with
    references := s.references - 1
    interned := if s.references - 1 = 0 then [] else s.interned }

/-- Drops a reference to a handle. -/
def unref (s : TypeStore) (h : HandleId) : Except Failure TypeStore :=
  if s.referencesOf h ≤ 0 then .error (s.released h)
  else
    let counted := s.count h (-1)
    .ok (if counted.referencesOf h = 0 then counted.forget h else counted).release

/-- Gives up the owner's reference. -/
def shutdown (s : TypeStore) : Except Failure TypeStore :=
  if s.isShut then .error closed else .ok { s with isShut := true }.release

/-- Adds a handle without references to the intern table. -/
def intern (s : TypeStore) (name : TypeName) : HandleId × TypeStore :=
  match s.interned.find? fun entry => entry.1 = name with
  | some (_, h) => (h, s)
  | none =>
    (s.handles.length,
      { s with
        handles := s.handles ++ [⟨name, 0⟩]
        interned := (name, s.handles.length) :: s.interned })

/-- A reference to the handle of a type. -/
def lookup (s : TypeStore) (name : TypeName) : Except Failure (HandleId × TypeStore) :=
  if s.isOpen then
    match s.rules.canonical name with
    | .ok canonical =>
      let (h, interned) := s.intern canonical
      (interned.ref h).map fun counted => (h, counted)
    | .error e => .error e
  else .error closed

/-- A type's name, its canonical name, and all its ancestors, nearest first. -/
def ancestors (s : TypeStore) (name : TypeName) : Except Failure (List TypeName) :=
  s.rules.ancestors name

/-- The type that a file name alone tells. -/
def typeOfName? (s : TypeStore) (name : Text) : Option Text :=
  ContentType.ofName? s.extensions s.overrides s.rules name

end TypeStore

end FileProfile
