import FileProfile.Failure
import FileProfile.Number.Word32

/-!
The kinds of files, told by the type bits of a mode, and the flags of a descriptor.
-/

namespace FileProfile

/-- The kind of a file; `unknown` is for type bits outside the seven known ones. -/
inductive FileKind where
  | regular
  | directory
  | symlink
  | socket
  | blockDevice
  | charDevice
  | fifo
  | unknown
deriving DecidableEq, Repr

namespace FileKind

def all : List FileKind :=
  [.regular, .directory, .symlink, .socket, .blockDevice, .charDevice, .fifo, .unknown]

def name : FileKind → Text
  | .regular => "regular"
  | .directory => "directory"
  | .symlink => "symlink"
  | .socket => "socket"
  | .blockDevice => "block-device"
  | .charDevice => "char-device"
  | .fifo => "fifo"
  | .unknown => "unknown"

def ofName? (name : Text) : Option FileKind := all.find? fun k => k.name = name

/-- The type bits of a mode. -/
def typeBits (mode : Int) : Int := Word32.land mode 0o170000

/-- The kind that the type bits tell. -/
def ofMode (mode : Int) : FileKind :=
  let bits := typeBits mode
  if bits = 0o140000 then .socket
  else if bits = 0o120000 then .symlink
  else if bits = 0o060000 then .blockDevice
  else if bits = 0o040000 then .directory
  else if bits = 0o020000 then .charDevice
  else if bits = 0o010000 then .fifo
  else if bits = 0o100000 then .regular
  else .unknown

/-- The content type of every file of a kind; that of a regular file depends on the file. -/
def contentType? : FileKind → Option Text
  | .regular => none
  | .directory => some "inode/directory"
  | .symlink => some "inode/symlink"
  | .socket => some "inode/socket"
  | .blockDevice => some "inode/blockdevice"
  | .charDevice => some "inode/chardevice"
  | .fifo => some "inode/fifo"
  | .unknown => some "application/octet-stream"

/-- The content type for the name of a kind. -/
def contentTypeOfName (name : Text) : Except Failure Text :=
  match (ofName? name).bind contentType? with
  | some type => .ok type
  | none => .error (.unhandledKind name)

end FileKind

/-- The twelve permission bits of a mode. -/
def permissionBits (mode : Int) : Int := Word32.land mode 0o7777

/-- A flag of a descriptor. -/
inductive Flag where
  /-- The path is a symbolic link. -/
  | symlink
  /-- The file may be launched. -/
  | executable
deriving DecidableEq, Repr

namespace Flag

def all : List Flag := [.symlink, .executable]

def bit : Flag → Int
  | .symlink => 1
  | .executable => 2

def name : Flag → Text
  | .symlink => "SYMLINK"
  | .executable => "EXECUTABLE"

/-- The flags word without any flag. -/
def noneSet : Int := 0

/-- Whether the flag is set. -/
def isSet (flags : Int) (f : Flag) : Bool := Word32.has flags f.bit

/-- The names of the flags that are set, in the order of their bits. -/
def names (flags : Int) : List Text := (all.filter (isSet flags)).map name

end Flag

example : FileKind.ofMode 0o100644 = .regular ∧ FileKind.ofMode 0o644 = .unknown := by decide
example : Flag.names 3 = (["SYMLINK", "EXECUTABLE"] : List Text) := by decide

end FileProfile
