import FileProfile.Descriptor.Resolve
import FileProfile.Launch.Template

/-!
Launch plans: the command line, the working directory and the display for the file of a descriptor
and the files to open with it. Nothing is run.
-/

namespace FileProfile

structure LaunchPlan where
  /-- The directory of the first file to open, or of the launched file itself. -/
  workingDirectory : Text
  argv : List Text
  /-- The display, where it is not that of the launcher. -/
  display : Option Text
deriving DecidableEq, Repr

namespace LaunchPlan

/-- The argument vector of a template, a fault naming the template. -/
def argvOf (template : Text) (values : LaunchValues) : Except Failure (List Text) :=
  (Template.expand template values).mapError fun fault => .template fault.message template

/-- The template that runs a file with the files to open behind it. -/
def directTemplate (path : Text) : Text := Template.quoteArgument path ++ " %F"

/-- The argument vector of a file that is run itself. -/
def directArgv (path : Text) (targets : List LaunchTarget) : Except Failure (List Text) :=
  argvOf (directTemplate path) { targets }

/-- The values that the field codes of an entry's command stand for. -/
def entryValues (path : Text) (entry : KeyFile) (targets : List LaunchTarget) (context : Context) :
    LaunchValues where
  targets
  icon := entry.get? DesktopEntry.group DesktopEntry.iconKey
  name := entry.getLocalized? DesktopEntry.group DesktopEntry.nameKey context.locales
  desktopFile := some path
  terminal := entry.getBool DesktopEntry.group DesktopEntry.terminalKey false
  terminalCommand := some context.terminalCommand

/-- The argument vector of a desktop entry. -/
def entryArgv (fs : FileSystem) (path : Text) (targets : List LaunchTarget) (context : Context) :
    Except Failure (List Text) :=
  match DesktopEntry.read fs path with
  | .error e => .error (.unreadableLauncher path (some e.message))
  | .ok entry =>
    match DesktopEntry.command? entry with
    | none => .error (.missingCommand path)
    | some command => argvOf command (entryValues path entry targets context)

end LaunchPlan

namespace Action

/-- How to run the file of a descriptor with files to open: a desktop entry by its command, any
other file by itself. -/
def plan (d : DescriptorId) (targets : List LaunchTarget) (context : Context) :
    Action LaunchPlan := do
  let x ← alive d
  let argv ←
    if (← typeName x.contentType) = ContentType.desktopEntry then
      ofExcept (LaunchPlan.entryArgv (← files) x.path targets context)
    else ofExcept (LaunchPlan.directArgv x.path targets)
  return {
    workingDirectory := Path.parent ((targets.head?.map LaunchTarget.path).getD x.path)
    argv
    display := context.display }

/-- A plan is made where its argument vector is, and changes nothing. -/
theorem runOn_plan {s : Session} {d : DescriptorId} {x : Descriptor}
    (found : s.descriptors[d]? = some x) (living : x.isAlive) (targets : List LaunchTarget)
    (context : Context) : (plan d targets context).runOn s =
      ((if s.types.nameOf x.contentType = ContentType.desktopEntry then
          LaunchPlan.entryArgv s.files x.path targets context
        else LaunchPlan.directArgv x.path targets).map fun argv => {
          workingDirectory := Path.parent ((targets.head?.map LaunchTarget.path).getD x.path)
          argv
          display := context.display }, s) := by
  have named : (typeName x.contentType).runOn s = (.ok (s.types.nameOf x.contentType), s) := rfl
  rw [plan, runOn_bind_ok (runOn_alive found living), runOn_bind_ok named]
  by_cases desktop : s.types.nameOf x.contentType = ContentType.desktopEntry
  · rw [if_pos desktop, if_pos desktop, runOn_bind_ok (runOn_files s), runOn_bind,
      runOn_ofExcept]
    cases LaunchPlan.entryArgv s.files x.path targets context <;> rfl
  · rw [if_neg desktop, if_neg desktop, runOn_bind, runOn_ofExcept]
    cases LaunchPlan.directArgv x.path targets <;> rfl

end Action

end FileProfile
