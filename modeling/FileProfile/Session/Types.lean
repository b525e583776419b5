import FileProfile.ContentType.Sniff
import FileProfile.Session.Basic

/-!
Content types of a session: lookups by name and by file, and the counting of references.

The log tells when the store is torn down and when a file could not be looked into.
-/

namespace FileProfile

namespace Action

/-- Tells that the store of content types is torn down, where it is. -/
def noteTeardown : Action Unit := do
  if (← types).references = 0 then record .debug "Content type database torn down"

/-- Takes another reference to a handle. -/
def refType (h : HandleId) : Action Unit := onTypes fun store => (store.ref h).map fun s => ((), s)

/-- Drops a reference to a handle. -/
def unrefType (h : HandleId) : Action Unit := do
  onTypes fun store => (store.unref h).map fun s => ((), s)
  noteTeardown

/-- Gives up the owner's reference to the store of content types. -/
def shutdownTypes : Action Unit := do
  onTypes fun store => store.shutdown.map fun s => ((), s)
  noteTeardown

/-- A reference to the handle of a type. -/
def lookupType (name : TypeName) : Action HandleId := onTypes fun store => store.lookup name

def typeName (h : HandleId) : Action TypeName := return (← types).nameOf h

/-- Fails where the store of content types answers no lookups. -/
def requireOpen : Action Unit := do
  if !(← types).isOpen then throw TypeStore.closed

/-- The type told by the contents of a file. Where they cannot be read it may be anything. -/
def sniffFile (path : Text) : Action TypeName := do
  match (← files).readStart path ContentType.sniffLength with
  | .ok bytes => return ContentType.sniff (← types).rules bytes
  | .error e =>
    record .debug ("Cannot sniff " ++ path ++ ": " ++ e.message)
    return ContentType.octetStream

/-- A reference to the handle for a regular file, by its name and else by its contents. -/
def lookupForFile (path displayName : Text) : Action HandleId := do
  requireOpen
  match (← types).typeOfName? displayName with
  | some name => lookupType name
  | none => lookupType (← sniffFile path)

end Action

end FileProfile
