import FileProfile.FileKind
import FileProfile.Path
import FileProfile.Storage.SystemError
import FileProfile.Text.Utf8

/-!
A file system: nodes by path, and the calls that are made to fail.

A path exists if and only if it has a node; directories are nodes like any other, and paths are
compared as they are written. A node with a target is a link, which most calls follow. Every call
first looks whether it is made to fail on the path that it was given.
-/

namespace FileProfile

/-- A file, a directory, a link or a device. Times are in milliseconds since 1970. -/
structure Node where
  content : Octets
  target : Option Text
  mode : Int
  uid : Int
  gid : Int
  size : Int
  atime : Int
  ctime : Int
  mtime : Int
  inode : Int
  device : Int
deriving DecidableEq, Repr

namespace Node

def kind (n : Node) : FileKind := FileKind.ofMode n.mode

/-- A regular file as it is created, with the bits of a group's and others' write permission left
out of its mode. -/
def created (content : Octets) (mode : Int) : Node where
  content
  target := none
  mode := 0o100000 + (permissionBits mode - Word32.land mode 0o022)
  uid := 1000
  gid := 1000
  size := content.length
  atime := 1800000000000
  ctime := 1800000000000
  mtime := 1800000000000
  inode := 9000
  device := 1

/-- The node with other permission bits. -/
def withPermissions (n : Node) (mode : Int) : Node :=
  { n with mode := n.mode - permissionBits n.mode + permissionBits mode }

end Node

/-- The nodes by path, and the errors of calls that are made to fail, by the path they are given. -/
structure FileSystem where
  /-- Where relative paths start once they are resolved. -/
  workingDirectory : Text := [Path.separator]
  entries : List (Text × Node) := []
  faults : List ((Call × Text) × Errno) := []
deriving DecidableEq, Repr

namespace FileSystem

/-! ## Entries -/

def find? (fs : FileSystem) (path : Text) : Option Node :=
  (fs.entries.find? fun entry => entry.1 = path).map Prod.snd

def erase (fs : FileSystem) (path : Text) : FileSystem :=
  { fs with entries := fs.entries.filter fun entry => entry.1 ≠ path }

def insert (fs : FileSystem) (path : Text) (node : Node) : FileSystem :=
  { fs with entries := (path, node) :: (fs.erase path).entries }

/-- The entries in the order of their paths. -/
def listing (fs : FileSystem) : List (Text × Node) :=
  fs.entries.mergeSort fun a b => Text.before a.1 b.1

@[simp] theorem faults_erase (fs : FileSystem) (path : Text) : (fs.erase path).faults = fs.faults :=
  rfl

@[simp] theorem faults_insert (fs : FileSystem) (path : Text) (node : Node) :
    (fs.insert path node).faults = fs.faults :=
  rfl

theorem find?_erase (fs : FileSystem) (path other : Text) :
    (fs.erase path).find? other = if other = path then none else fs.find? other := by
  unfold find? erase
  rw [List.find?_filter]
  by_cases same : other = path
  · subst same
    rw [if_pos rfl, List.find?_eq_none.mpr, Option.map_none]
    intro entry _
    simp
  · rw [if_neg same]
    congr 2
    funext entry
    by_cases here : entry.1 = other
    · simp [here, same]
    · simp [here]

theorem find?_insert (fs : FileSystem) (path other : Text) (node : Node) :
    (fs.insert path node).find? other = if other = path then some node else fs.find? other := by
  by_cases same : other = path
  · simp [find?, insert, same]
  · have apart : path ≠ other := fun h => same h.symm
    have rest := find?_erase fs path other
    rw [if_neg same] at rest ⊢
    rw [← rest]
    simp [find?, insert, apart]

/-! ## Faults -/

def fault? (fs : FileSystem) (call : Call) (path : Text) : Option Errno :=
  (fs.faults.find? fun fault => fault.1 = (call, path)).map Prod.snd

/-- Makes a call fail on a path. -/
def setFault (fs : FileSystem) (call : Call) (path : Text) (errno : Errno) : FileSystem :=
  { fs with faults := ((call, path), errno) :: fs.faults }

/-- Lets a call on a path pass. -/
def clearFault (fs : FileSystem) (call : Call) (path : Text) : FileSystem :=
  { fs with faults := fs.faults.filter fun fault => fault.1 ≠ (call, path) }

/-- Fails where the call is made to fail on the path. -/
def attempt (fs : FileSystem) (call : Call) (path : Text) (subject : Subject) :
    Except SystemError Unit :=
  match fs.fault? call path with
  | some errno => .error ⟨errno, call.systemCall, subject⟩
  | none => .ok ()

/-! ## Links -/

/-- How many links are followed one after another. -/
def linkLimit : Nat := 40

/-- The path that a path names, a relative one starting at the working directory. -/
def absolute (fs : FileSystem) (path : Text) : Text := Path.resolve fs.workingDirectory path

/-- The path that a link at `path` leads to. -/
def destination (fs : FileSystem) (path target : Text) : Text :=
  Path.resolve (fs.absolute (Path.parent path)) target

/-- The place behind the links that begin at a path, at most `limit` of them. -/
def followWithin (fs : FileSystem) : Nat → Text → Except Errno (Text × Node)
  | limit, path =>
    match fs.find? path with
    | none => .error .enoent
    | some node =>
      match node.target with
      | none => .ok (path, node)
      | some target =>
        match limit with
        | 0 => .error .eloop
        | limit + 1 => followWithin fs limit (fs.destination path target)

/-- The place behind the links that begin at a path, for a call on the path. -/
def follow (fs : FileSystem) (call : Call) (path : Text) : Except SystemError (Text × Node) :=
  match fs.followWithin linkLimit path with
  | .ok place => .ok place
  | .error errno => .error ⟨errno, call.systemCall, .file path⟩

/-! ## Queries -/

/-- The node at a path, a link not being followed. -/
def lstat (fs : FileSystem) (path : Text) : Except SystemError Node := do
  fs.attempt .lstat path (.file path)
  match fs.find? path with
  | some node => return node
  | none => throw ⟨.enoent, Call.lstat.systemCall, .file path⟩

/-- The node at a path that may be free. Unless this call is itself made to fail, a path that
`lstat` says is not there counts as free. -/
def lstatIfPresent (fs : FileSystem) (path : Text) : Except SystemError (Option Node) := do
  fs.attempt .lstatIfPresent path (.file path)
  match fs.lstat path with
  | .ok node => return some node
  | .error e => if e.errno = .enoent then return none else throw e

/-- The node behind the links at a path. -/
def stat (fs : FileSystem) (path : Text) : Except SystemError Node := do
  fs.attempt .stat path (.file path)
  let (_, node) ← fs.follow .stat path
  return node

/-- Succeeds where the file may be executed by anyone. -/
def access (fs : FileSystem) (path : Text) : Except SystemError Unit := do
  fs.attempt .access path (.file path)
  let (_, node) ← fs.follow .access path
  if Word32.land node.mode 0o111 = 0 then throw ⟨.eacces, Call.access.systemCall, .file path⟩

/-- The octets of a node; a directory has none to read. -/
def contentOf (node : Node) : Except SystemError Octets :=
  if node.kind = .directory then .error ⟨.eisdir, Call.read.systemCall, .nothing⟩
  else .ok node.content

/-- The first octets of a file, at most `limit` of them. -/
def readStart (fs : FileSystem) (path : Text) (limit : Nat) : Except SystemError Octets := do
  fs.attempt .openFile path (.file path)
  let (_, node) ← fs.follow .openFile path
  fs.attempt .read path .nothing
  let content ← contentOf node
  return content.take limit

/-- All octets of a file. -/
def readFile (fs : FileSystem) (path : Text) : Except SystemError Octets := do
  fs.attempt .readFile path (.file path)
  let (_, node) ← fs.follow .readFile path
  contentOf node

/-- A file as text, malformed octets replaced. -/
def readText (fs : FileSystem) (path : Text) : Except SystemError Text :=
  (fs.readFile path).map Utf8.decodeLossy

/-! ## Updates -/

/-- Creates a file at a free path. -/
def createFile (fs : FileSystem) (path : Text) (content : Octets) (mode : Int) :
    Except SystemError FileSystem := do
  fs.attempt .writeFile path (.file path)
  match fs.find? path with
  | some _ => throw ⟨.eexist, Call.writeFile.systemCall, .file path⟩
  | none => return fs.insert path (.created content mode)

/-- Replaces the permission bits of a file. -/
def chmod (fs : FileSystem) (path : Text) (mode : Int) : Except SystemError FileSystem := do
  fs.attempt .chmod path (.file path)
  let (place, node) ← fs.follow .chmod path
  return fs.insert place (node.withPermissions mode)

/-- Moves one entry, replacing the one at the destination. -/
def rename (fs : FileSystem) (source destination : Text) : Except SystemError FileSystem := do
  fs.attempt .rename source (.move source destination)
  match fs.find? source with
  | some node => return (fs.erase source).insert destination node
  | none => throw ⟨.enoent, Call.rename.systemCall, .move source destination⟩

/-- Removes an entry where there is one. -/
def remove (fs : FileSystem) (path : Text) : Except SystemError FileSystem := do
  fs.attempt .remove path (.file path)
  return fs.erase path

end FileSystem

end FileProfile
