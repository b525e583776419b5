import FileProfile.Document.Reader
import FileProfile.Settings.Config
import FileProfile.Storage.FileSystem

/-!
Configuration files: where they are looked for, and how one is loaded.

The nearest file counts: that of the start directory, else that of the nearest directory above that
has one. A file that is there and cannot be loaded is a failure, not a miss.
-/

namespace FileProfile

namespace Config

/-- The names of configuration files, the preferred first. -/
def fileNames : List Text := ["filemeta.config.yaml", "filemeta.config.yml"]

/-- Loads a configuration file. A file that holds no document says nothing. -/
def load (fs : FileSystem) (path : Text) : Except Failure Config :=
  match fs.readText path with
  | .error e => .error e.failure
  | .ok text =>
    match Document.read text with
    | .error message => .error (.documentSyntax message)
    | .ok .null => .ok {}
    | .ok d => (read d).mapError (.invalidConfig path)

/-- A directory and those above it, the nearest first. -/
def directoriesUpward (directory : Text) : List Text :=
  if (Path.parent directory).length < directory.length then
    directory :: directoriesUpward (Path.parent directory)
  else [directory]
termination_by directory.length

/-- The paths that may hold the configuration for a directory, the preferred first. -/
def candidates (directory : Text) : List Text :=
  (directoriesUpward directory).flatMap fun d => fileNames.map (Path.join d)

/-- Whether a regular file can be seen at a path. -/
def isFile (fs : FileSystem) (path : Text) : Bool :=
  match fs.stat path with
  | .ok node => node.kind = .regular
  | .error _ => false

/-- A configuration and where it was found. -/
structure Found where
  config : Config
  path : Text
deriving DecidableEq, Repr

/-- Finds and loads the configuration for a directory. -/
def find (fs : FileSystem) (directory : Text) : Except Failure (Option Found) :=
  match (candidates (fs.absolute directory)).find? (isFile fs) with
  | none => .ok none
  | some path => (load fs path).map fun config => some { config, path }

end Config

end FileProfile
