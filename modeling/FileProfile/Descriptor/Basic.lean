import FileProfile.ContentType.Store
import FileProfile.Identity
import FileProfile.Number.Binary64
import FileProfile.Number.Timestamp
import FileProfile.Storage.FileSystem

/-!
Descriptors: what is observed of a file.
-/

namespace FileProfile

/-- The attributes of a file. Sizes and times are doubles; inode and device numbers are exact. -/
structure Attributes where
  mode : Int
  uid : Int
  gid : Int
  size : Int
  atime : Int
  ctime : Int
  mtime : Int
  inode : Int
  device : Int
deriving DecidableEq, Repr

/-- The attributes of a node. -/
def Node.attributes (n : Node) : Attributes where
  mode := Binary64.ofInt n.mode
  uid := Binary64.ofInt n.uid
  gid := Binary64.ofInt n.gid
  size := Binary64.ofInt n.size
  atime := Binary64.ofInt n.atime
  ctime := Binary64.ofInt n.ctime
  mtime := Binary64.ofInt n.mtime
  inode := n.inode
  device := n.device

/-- What a desktop entry says about its presentation. -/
structure Hints where
  icon : Option Text
  name : Option Text
deriving DecidableEq, Repr

/-- A counted description of a file. -/
structure Descriptor where
  references : Int
  identity : Identity
  displayName : Text
  kind : FileKind
  attributes : Attributes
  flags : Int
  contentType : HandleId
  hints : Option Hints
deriving DecidableEq, Repr

namespace Descriptor

/-- A descriptor with one reference, shown under the last component of its path. -/
def new (identity : Identity) (kind : FileKind) (attributes : Attributes) (flags : Int)
    (contentType : HandleId) (hints : Option Hints) : Descriptor where
  references := 1
  identity
  displayName := identity.displayName
  kind
  attributes
  flags
  contentType
  hints

def isDisposed (d : Descriptor) : Bool := d.references = 0

/-- Whether the descriptor may be used. -/
def isAlive (d : Descriptor) : Bool := 0 < d.references

def path (d : Descriptor) : Text := d.identity.path

/-- The permission bits. -/
def mode (d : Descriptor) : Int := permissionBits d.attributes.mode

/-- The permission bits as four octal digits. -/
def modeText (d : Descriptor) : Text := Text.padStart 4 '0' (Numeral.octal d.mode.toNat)

/-- Whether two descriptors show the same state of the same file. Display names, hints and reference
counts do not matter; content types are compared as handles. -/
def agrees (a b : Descriptor) : Bool :=
  a.kind = b.kind && a.mode = b.mode && a.flags = b.flags && a.attributes.uid = b.attributes.uid
    && a.attributes.gid = b.attributes.gid && a.attributes.size = b.attributes.size
    && a.attributes.atime = b.attributes.atime && a.attributes.mtime = b.attributes.mtime
    && a.attributes.ctime = b.attributes.ctime && a.attributes.inode = b.attributes.inode
    && a.attributes.device = b.attributes.device && a.contentType = b.contentType
    && a.identity.equals b.identity

end Descriptor

/-- What becomes of the hints of a descriptor. -/
inductive HintsChange where
  | keep
  | clear
  | replace (hints : Hints)
deriving DecidableEq, Repr

/-- The fields of a descriptor to replace. -/
structure DescriptorChange where
  identity : Option Identity := none
  displayName : Option Text := none
  contentType : Option HandleId := none
  flags : Option Int := none
  hints : HintsChange := .keep
deriving DecidableEq, Repr

namespace DescriptorChange

/-- Replaces the identity and the display name. -/
def applyNames (c : DescriptorChange) (d : Descriptor) : Descriptor :=
  { d with
    identity := c.identity.getD d.identity
    displayName := c.displayName.getD d.displayName }

/-- Replaces the flags and the hints. -/
def applyMarks (c : DescriptorChange) (d : Descriptor) : Descriptor :=
  { d with
    flags := c.flags.getD d.flags
    hints :=
      match c.hints with
      | .keep => d.hints
      | .clear => none
      | .replace hints => some hints }

end DescriptorChange

end FileProfile
