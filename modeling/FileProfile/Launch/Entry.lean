import FileProfile.Descriptor.Basic
import FileProfile.KeyFile.Basic

/-!
Desktop entries: key files that name an application, its icon and the command to run.
-/

namespace FileProfile

/-- What a desktop entry says about launching. -/
structure Launcher where
  hints : Hints
  /-- Whether the entry names an application and a command. -/
  isLaunchable : Bool
deriving DecidableEq, Repr

/-- The failure of reading a text as a key file. -/
def KeyFile.ParseError.failure (e : KeyFile.ParseError) : Failure := .keyFile e.fault.message e.line

namespace DesktopEntry

/-- The group that holds the entries for launching. -/
def group : Text := "Desktop Entry"

def typeKey : Text := "Type"

def nameKey : Text := "Name"

def iconKey : Text := "Icon"

def commandKey : Text := "Exec"

def terminalKey : Text := "Terminal"

/-- The type of entries that can be launched, and of those that give none. -/
def applicationType : Text := "Application"

/-- Whether a value is a command: it is not blank. -/
def isCommand (value : Text) : Bool := Text.trim value ≠ []

/-- The command of an entry, where it has one. -/
def command? (f : KeyFile) : Option Text := (f.get? group commandKey).filter isCommand

def hints (f : KeyFile) (locales : List Text) : Hints where
  icon := f.get? group iconKey
  name := f.getLocalized? group nameKey locales

/-- What a key file says about launching; without the main group it says nothing. -/
def launcher (f : KeyFile) (locales : List Text) : Launcher where
  hints := hints f locales
  isLaunchable :=
    (f.get? group typeKey).getD applicationType = applicationType && (command? f).isSome

/-- The key file at a path. -/
def read (fs : FileSystem) (path : Text) : Except Failure KeyFile :=
  match fs.readText path with
  | .error e => .error e.failure
  | .ok text => (KeyFile.parse text).mapError KeyFile.ParseError.failure

/-- The key that holds the displayed name: that of the first of the locales for which the entry has
one, else the plain one. -/
def shownNameKey (f : KeyFile) (locales : List Text) : Text :=
  ((locales.map (KeyFile.localized nameKey)).find? (f.hasKey group)).getD nameKey

end DesktopEntry

end FileProfile
