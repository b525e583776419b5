import FileProfile.Storage.FileSystem

/-!
Replacing the contents of a file through a temporary file beside it.

The temporary file is created, given the permission bits of the file, and moved over it, so that the
file is never seen half written. Where a step fails the temporary path is cleared. Octets drawn at
random make it unlikely that a file stands there already.
-/

namespace FileProfile

namespace FileSystem

/-- The path of the temporary file for `path`, which is marked with octets drawn at random. -/
def temporaryPath (random : Octets) (path : Text) : Text :=
  Path.join (Path.parent path)
    ("." ++ Path.baseName path ++ "." ++ Numeral.hexOctets random ++ ".tmp")

/-- Clears the temporary path after a failed step. A failure to do so takes the place of the failure
of the step. -/
def abandon (fs : FileSystem) (random : Octets) (path : Text) (cause : SystemError) :
    Except Failure Unit × FileSystem :=
  match fs.remove (temporaryPath random path) with
  | .ok cleared => (.error (cause.failureOn path), cleared)
  | .error e => (.error e.failure, fs)

/-- Replaces the contents of a file and keeps its permission bits. A link is replaced, not followed;
the permission bits are those of the file behind it. -/
def replaceContents (fs : FileSystem) (random : Octets) (path : Text) (content : Octets) :
    Except Failure Unit × FileSystem :=
  match fs.stat path with
  | .error e => (.error (e.failureOn path), fs)
  | .ok node =>
    let mode := permissionBits node.mode
    match fs.createFile (temporaryPath random path) content mode with
    | .error e => fs.abandon random path e
    | .ok created =>
      match created.chmod (temporaryPath random path) mode with
      | .error e => created.abandon random path e
      | .ok ready =>
        match ready.rename (temporaryPath random path) path with
        | .error e => ready.abandon random path e
        | .ok replaced => (.ok (), replaced)

end FileSystem

end FileProfile
