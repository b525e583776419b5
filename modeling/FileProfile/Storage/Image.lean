import FileProfile.Document.Basic
import FileProfile.Storage.FileSystem

/-!
Images: file systems as documents.

An image is a record of `files`, nodes by path, and `faults`, error codes by call and path. The
fields of a node may be left out. Contents are given as text or as hexadecimal digits.
-/

namespace FileProfile

namespace Image

/-- The octets that pairs of hexadecimal digits spell. -/
def octets? : Text → Option Octets
  | [] => some []
  | [_] => none
  | u :: v :: rest => do
    let octet := (← u.hexValue?) * 16 + (← v.hexValue?)
    return octet.toUInt8 :: (← octets? rest)

/-- An integer, or decimal digits that may follow a minus sign. -/
def integer? : Document → Option Int
  | .integer n => some n
  | .string (0x2D :: digits) => (Numeral.decimal? digits).map fun n => -(n : Int)
  | .string digits => (Numeral.decimal? digits).map fun n => (n : Int)
  | _ => none

def text? : Document → Option Text
  | .string t => some t
  | _ => none

/-- The contents that the fields of a node give; digits count before text. -/
def content (fields : List (Text × Document)) : Octets :=
  let given (key : Text) := (Document.find? fields key).bind text?
  match given "hex" with
  | some digits => (octets? digits).getD []
  | none => Utf8.encode ((given "text").getD [])

/-- A node; what is not given is that of a common file, directory or link. -/
def node (fields : List (Text × Document)) : Node :=
  let target := (Document.find? fields "target").bind text?
  let content := content fields
  let number (key : Text) (otherwise : Int) :=
    ((Document.find? fields key).bind integer?).getD otherwise
  let isDirectory :=
    match Document.find? fields "dir" with
    | some (.bool b) => b
    | _ => false
  { content
    target
    mode := number "mode"
      (if target.isSome then 0o120777 else if isDirectory then 0o040755 else 0o100644)
    uid := number "uid" 1000
    gid := number "gid" 1000
    size := number "size"
      (match target with
      | some t => (Utf8.encode t).length
      | none => content.length)
    atime := number "atime" 1700000000000
    ctime := number "ctime" 1700000001000
    mtime := number "mtime" 1700000002000
    inode := number "ino" 100
    device := number "dev" 1 }

/-- The call and the path of a fault, which a blank separates. -/
def faultKey? (key : Text) : Option (Call × Text) :=
  let name := key.takeWhile fun u => u ≠ 0x20
  (Call.ofName? name).map fun call => (call, key.drop (name.length + 1))

def fields (d : Option Document) : List (Text × Document) :=
  match d with
  | some (.record fields) => fields
  | _ => []

/-- The file system of an image in a working directory. What is no node and no known fault does not
count. -/
def read (workingDirectory : Text) (d : Document) : FileSystem :=
  let parts := fields (some d)
  { workingDirectory
    entries := (fields (Document.find? parts "files")).map fun (path, d) =>
      (path, node (fields (some d)))
    faults := (fields (Document.find? parts "faults")).filterMap fun (key, d) => do
      let place ← faultKey? key
      let errno ← (text? d).bind Errno.ofName?
      return (place, errno) }

/-- A node as a record of all its fields. -/
def nodeDocument (n : Node) : Document :=
  let number (key : String) (value : Int) : Text × Document :=
    (key, .string (Numeral.decimalInt value))
  let target : List (Text × Document) :=
    n.target.toList.map fun t => (("target" : Text), Document.string t)
  .record ([(("hex" : Text), Document.string (Numeral.hexOctets n.content))] ++ target
    ++ [number "mode" n.mode, number "uid" n.uid, number "gid" n.gid, number "size" n.size,
      number "atime" n.atime, number "ctime" n.ctime, number "mtime" n.mtime,
      number "ino" n.inode, number "dev" n.device])

/-- The image of a file system. -/
def write (fs : FileSystem) : Document :=
  .record [("files", .record (fs.listing.map fun (path, n) => (path, nodeDocument n))),
    ("faults", .record (fs.faults.map fun ((call, path), errno) =>
      (call.name ++ (0x20 : CodeUnit) :: path, .string errno.name)))]

end Image

end FileProfile
