import FileProfile.Descriptor.Resolve
import FileProfile.FileName
import FileProfile.Storage.Replace

/-!
Renaming the file of a descriptor.

A desktop entry keeps its path: the key of its displayed name is set in the file. Any other file is
moved to the new name beside the old one, and a regular file is classified again first, since its
type may depend on its name. The descriptor is changed only when every step that can fail is done.
-/

namespace FileProfile

namespace Action

/-- The key file in octets that must be well-formed text with the main group. -/
def entryOf (path : Text) (bytes : Octets) : Except Failure KeyFile :=
  match Utf8.decode? bytes with
  | none => .error (.invalidFormat "Desktop entry is not valid UTF-8" (some path))
  | some text =>
    match KeyFile.parse text with
    | .error e => .error e.failure
    | .ok entry =>
      if entry.hasGroup DesktopEntry.group then .ok entry
      else .error (.invalidFormat ("Missing [" ++ DesktopEntry.group ++ "] group") (some path))

/-- Changes the displayed name that a desktop entry gives to itself. -/
def renameEntry (d : DescriptorId) (name : Text) (context : Context) : Action Unit := do
  let x ← alive d
  let bytes ← ofExcept (((← files).readFile x.path).mapError (·.failureOn x.path))
  let entry ← ofExcept (entryOf x.path bytes)
  let key := DesktopEntry.shownNameKey entry context.locales
  let renamed := entry.set DesktopEntry.group key name
  onFiles fun fs => fs.replaceContents context.random x.path (Utf8.encode renamed.text)
  record .debug ("Set " ++ key ++ " of " ++ x.path ++ " to \"" ++ name ++ "\"")
  match x.hints with
  | some hints => apply d { hints := .replace { hints with name := some name } }
  | none => pure ()

/-- Moves an entry of the file system. -/
def move (source destination : Text) : Action Unit := do
  onFiles fun fs =>
    match fs.rename source destination with
    | .ok moved => (.ok (), moved)
    | .error e => (.error (e.failureOn source), fs)
  record .debug ("Renamed " ++ source ++ " to " ++ destination)

/-- Fails where a path is taken. -/
def requireFree (path : Text) : Action Unit := do
  let taken ← ofExcept (((← files).lstatIfPresent path).mapError (·.failureOn path))
  if taken.isSome then throw (.alreadyExists path)

/-- Moves a regular file that has been classified by its new name. The reference to the new type is
given up where the move fails. -/
def moveRegular (d : DescriptorId) (x : Descriptor) (destination : Identity) (name : Text)
    (classification : Classification) (launcher : Option Launcher) : Action Unit := do
  try move x.path destination.path
  catch e =>
    unrefType classification.contentType
    throw e
  let link : LinkState :=
    if Word32.land x.flags Flag.symlink.bit = 0 then .none else .followed
  apply d {
    identity := some destination
    displayName := some name
    contentType := some classification.contentType
    flags := some (computeFlags link classification.executable classification.executePermitted
      (launcher.map Launcher.isLaunchable))
    hints := match launcher with
      | some l => .replace l.hints
      | none => .clear }

/-- Moves a file to a new name in its directory. -/
def renamePath (d : DescriptorId) (name : Text) (context : Context) : Action Unit := do
  let fileName ← ofExcept (FileName.encode name)
  let x ← alive d
  let destination := x.identity.sibling fileName
  requireFree destination.path
  if x.kind = .regular then
    let classification ← classifyRegular x.path name x.mode
    let launcher ← launcherOf x.path classification.contentType context.locales
    moveRegular d x destination name classification launcher
  else
    move x.path destination.path
    apply d { identity := some destination, displayName := some name }

/-- Gives the file of a descriptor a new name. -/
def rename (d : DescriptorId) (name : Text) (context : Context) : Action Unit := do
  ofExcept (FileName.validate name)
  let x ← alive d
  if (← typeName x.contentType) = ContentType.desktopEntry then renameEntry d name context
  else renamePath d name context

end Action

end FileProfile
