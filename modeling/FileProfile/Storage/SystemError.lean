import FileProfile.Failure

/-!
System calls, the codes with which they fail, and the messages about it.
-/

namespace FileProfile

/-- The code of a failed system call. -/
inductive Errno where
  | eperm
  | enoent
  | eio
  | eacces
  | ebusy
  | eexist
  | exdev
  | enotdir
  | eisdir
  | enospc
  | erofs
  | enametoolong
  | eloop
deriving DecidableEq, Repr

namespace Errno

def all : List Errno :=
  [.eperm, .enoent, .eio, .eacces, .ebusy, .eexist, .exdev, .enotdir, .eisdir, .enospc, .erofs,
    .enametoolong, .eloop]

def name : Errno → Text
  | .eperm => "EPERM"
  | .enoent => "ENOENT"
  | .eio => "EIO"
  | .eacces => "EACCES"
  | .ebusy => "EBUSY"
  | .eexist => "EEXIST"
  | .exdev => "EXDEV"
  | .enotdir => "ENOTDIR"
  | .eisdir => "EISDIR"
  | .enospc => "ENOSPC"
  | .erofs => "EROFS"
  | .enametoolong => "ENAMETOOLONG"
  | .eloop => "ELOOP"

def ofName? (name : Text) : Option Errno := all.find? fun e => e.name = name

def number : Errno → Int
  | .eperm => -1
  | .enoent => -2
  | .eio => -5
  | .eacces => -13
  | .ebusy => -16
  | .eexist => -17
  | .exdev => -18
  | .enotdir => -20
  | .eisdir => -21
  | .enospc => -28
  | .erofs => -30
  | .enametoolong => -36
  | .eloop => -40

def description : Errno → Text
  | .eperm => "operation not permitted"
  | .enoent => "no such file or directory"
  | .eio => "i/o error"
  | .eacces => "permission denied"
  | .ebusy => "resource busy or locked"
  | .eexist => "file already exists"
  | .exdev => "cross-device link not permitted"
  | .enotdir => "not a directory"
  | .eisdir => "illegal operation on a directory"
  | .enospc => "no space left on device"
  | .erofs => "read-only file system"
  | .enametoolong => "name too long"
  | .eloop => "too many symbolic links encountered"

end Errno

/-- The operations of a file system that can be made to fail. -/
inductive Call where
  | lstat
  /-- Looking at a path that may be free. -/
  | lstatIfPresent
  | stat
  | access
  | openFile
  | read
  | readFile
  | writeFile
  | chmod
  | rename
  | remove
deriving DecidableEq, Repr

namespace Call

def all : List Call :=
  [.lstat, .lstatIfPresent, .stat, .access, .openFile, .read, .readFile, .writeFile, .chmod,
   .rename, .remove]

def name : Call → Text
  | .lstat => "lstat"
  | .lstatIfPresent => "lstatIfPresent"
  | .stat => "stat"
  | .access => "access"
  | .openFile => "open"
  | .read => "read"
  | .readFile => "readFile"
  | .writeFile => "writeFile"
  | .chmod => "chmod"
  | .rename => "rename"
  | .remove => "rm"

def ofName? (name : Text) : Option Call := all.find? fun c => c.name = name

/-- The system call that messages name: a file is opened to be read or written as a whole. -/
def systemCall : Call → Text
  | .lstatIfPresent => "lstat"
  | .readFile | .writeFile => "open"
  | call => call.name

end Call

/-- What a failed system call was about. -/
inductive Subject where
  | nothing
  | file (path : Text)
  | move (source destination : Text)
deriving DecidableEq, Repr

/-- A failed system call. -/
structure SystemError where
  errno : Errno
  call : Text
  subject : Subject
deriving DecidableEq, Repr

namespace SystemError

def subjectText : Subject → Text
  | .nothing => []
  | .file path => " '" ++ path ++ "'"
  | .move source destination => " '" ++ source ++ "' -> '" ++ destination ++ "'"

def message (e : SystemError) : Text :=
  e.errno.name ++ ": " ++ e.errno.description ++ ", " ++ e.call ++ subjectText e.subject

/-- The error as the system reports it. -/
def failure (e : SystemError) : Failure :=
  .system e.errno.name e.message (some e.errno.number)

/-- The error as a failure of an operation on `path`. -/
def failureOn (e : SystemError) (path : Text) : Failure :=
  .io e.errno.name e.message (some path) (some e.errno.number)

end SystemError

example : SystemError.message ⟨.exdev, "rename", .move "/a" "/b"⟩ =
    "EXDEV: cross-device link not permitted, rename '/a' -> '/b'" := by decide

end FileProfile
