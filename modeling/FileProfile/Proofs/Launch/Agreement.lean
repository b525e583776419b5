import FileProfile.ContentType.Bundled
import FileProfile.Launch.Plan
import FileProfile.Proofs.Descriptor.Specified

/-!
What is shown of a desktop entry, and what launching it does.

The launcher that is shown and the launch plan are read from the same file by two requests. They
agree whatever the file holds (`plan_agrees`): a plan fails for want of an entry or of a command
exactly where the launcher tells so, and is otherwise the expansion of the entry's command with the
icon and the name that are shown.
-/

namespace FileProfile

namespace DesktopEntry

/-- An entry has a command that is not blank. -/
def Commands (entry : KeyFile) : Prop :=
  ∃ command, entry.get? group commandKey = some command ∧ Text.trim command ≠ []

theorem command?_eq_some {entry : KeyFile} {command : Text} : command? entry = some command ↔
    entry.get? group commandKey = some command ∧ Text.trim command ≠ [] := by
  rw [command?, Option.filter_eq_some_iff, isCommand, decide_eq_true_iff]

theorem command?_eq_none {entry : KeyFile} : command? entry = none ↔ ¬ Commands entry := by
  rw [Option.eq_none_iff_forall_ne_some]
  constructor
  · rintro none ⟨command, given⟩
    exact none command (command?_eq_some.mpr given)
  · intro none command given
    exact none ⟨command, command?_eq_some.mp given⟩

end DesktopEntry

namespace LaunchPlan

open DesktopEntry (Commands command?_eq_some command?_eq_none)

/-- The values of an entry's command, with an icon and a name that are shown. -/
def shownValues (path : Text) (entry : KeyFile) (hints : Hints) (targets : List LaunchTarget)
    (context : Context) : LaunchValues where
  targets
  icon := hints.icon
  name := hints.name
  desktopFile := some path
  terminal := entry.getBool DesktopEntry.group DesktopEntry.terminalKey false
  terminalCommand := some context.terminalCommand

/-- What is shown of the entry at a path, and the argument vector that is made of it. -/
inductive Planned (fs : FileSystem) (path : Text) (targets : List LaunchTarget)
    (context : Context) : Option Launcher → Except Failure (List Text) → Prop where
  | unreadable {e : Failure} : DesktopEntry.read fs path = .error e →
      Planned fs path targets context none (.error (.unreadableLauncher path (some e.message)))
  | commandless {entry : KeyFile} : DesktopEntry.read fs path = .ok entry → ¬ Commands entry →
      Planned fs path targets context (some (DesktopEntry.launcher entry context.locales))
        (.error (.missingCommand path))
  | faulty {entry : KeyFile} {command : Text} {fault : Template.Fault} :
      DesktopEntry.read fs path = .ok entry →
      entry.get? DesktopEntry.group DesktopEntry.commandKey = some command →
      Text.trim command ≠ [] →
      Template.expand command (shownValues path entry
        (DesktopEntry.hints entry context.locales) targets context) = .error fault →
      Planned fs path targets context (some (DesktopEntry.launcher entry context.locales))
        (.error (.template fault.message command))
  | expanded {entry : KeyFile} {command : Text} {argv : List Text} :
      DesktopEntry.read fs path = .ok entry →
      entry.get? DesktopEntry.group DesktopEntry.commandKey = some command →
      Text.trim command ≠ [] →
      Template.expand command (shownValues path entry
        (DesktopEntry.hints entry context.locales) targets context) = .ok argv →
      Planned fs path targets context (some (DesktopEntry.launcher entry context.locales))
        (.ok argv)

theorem planned_entryArgv (fs : FileSystem) (path : Text) (targets : List LaunchTarget)
    (context : Context) :
    Planned fs path targets context
      (fs.launcherAt path ContentType.desktopEntry context.locales)
      (entryArgv fs path targets context) := by
  rw [FileSystem.launcherAt, if_pos rfl, entryArgv]
  cases reads : DesktopEntry.read fs path with
  | error e => exact .unreadable reads
  | ok entry =>
    cases given : DesktopEntry.command? entry with
    | none =>
      simp only [given]
      exact .commandless reads (command?_eq_none.mp given)
    | some command =>
      obtain ⟨named, solid⟩ := command?_eq_some.mp given
      have values : entryValues path entry targets context =
        shownValues path entry (DesktopEntry.hints entry context.locales) targets context := rfl
      simp only [given, argvOf, values]
      cases expands : Template.expand command (shownValues path entry
          (DesktopEntry.hints entry context.locales) targets context) with
      | error fault => exact .faulty reads named solid expands
      | ok argv => exact .expanded reads named solid expands

/-- The launcher that is shown of the entry at a path agrees with the answer of a plan for it. -/
structure Agrees (fs : FileSystem) (path : Text) (targets : List LaunchTarget) (context : Context)
    (launcher : Option Launcher) (answer : Except Failure LaunchPlan) : Prop where
  unreadable_iff : (∃ p reason, answer = .error (.unreadableLauncher p reason)) ↔ launcher = none
  commandless_iff : (∃ p, answer = .error (.missingCommand p)) ↔
    launcher ≠ none ∧ ∃ entry, DesktopEntry.read fs path = .ok entry ∧ ¬ Commands entry
  launchable : ∀ shown, launcher = some shown → shown.isLaunchable →
    (∀ p reason, answer ≠ .error (.unreadableLauncher p reason)) ∧
      ∀ p, answer ≠ .error (.missingCommand p)
  argv_iff : ∀ argv, (∃ plan, answer = .ok plan ∧ plan.argv = argv) ↔
    ∃ shown entry command, launcher = some shown ∧ DesktopEntry.read fs path = .ok entry ∧
      entry.get? DesktopEntry.group DesktopEntry.commandKey = some command ∧
      Text.trim command ≠ [] ∧
      Template.expand command (shownValues path entry shown.hints targets context) = .ok argv

section

variable {fs : FileSystem} {path : Text} {targets : List LaunchTarget} {context : Context}
  {entry : KeyFile}

theorem agrees_unreadable (reason : Option Text) :
    Agrees fs path targets context none (.error (.unreadableLauncher path reason)) where
  unreadable_iff := ⟨fun _ => rfl, fun _ => ⟨path, reason, rfl⟩⟩
  commandless_iff := by
    refine ⟨nofun, ?_⟩
    rintro ⟨shown, -⟩
    exact absurd rfl shown
  launchable := nofun
  argv_iff argv := ⟨nofun, nofun⟩

theorem agrees_commandless (reads : DesktopEntry.read fs path = .ok entry)
    (blank : ¬ Commands entry) :
    Agrees fs path targets context (some (DesktopEntry.launcher entry context.locales))
      (.error (.missingCommand path)) where
  unreadable_iff := ⟨nofun, nofun⟩
  commandless_iff := ⟨fun _ => ⟨nofun, entry, reads, blank⟩, fun _ => ⟨path, rfl⟩⟩
  launchable := by
    rintro _ ⟨⟩ launches
    exact absurd ((DesktopEntry.isLaunchable_launcher_iff entry _).mp launches).2 blank
  argv_iff argv := by
    refine ⟨nofun, ?_⟩
    rintro ⟨_, entry', command, -, reads', named, solid, -⟩
    obtain rfl := Except.ok.inj (reads.symm.trans reads')
    exact absurd ⟨command, named, solid⟩ blank

section

variable {command directory : Text} (reads : DesktopEntry.read fs path = .ok entry)
  (named : entry.get? DesktopEntry.group DesktopEntry.commandKey = some command)
  (solid : Text.trim command ≠ [])

include reads named solid

theorem not_commandless : ¬ ∃ entry, DesktopEntry.read fs path = .ok entry ∧ ¬ Commands entry := by
  rintro ⟨entry', reads', blank⟩
  obtain rfl := Except.ok.inj (reads.symm.trans reads')
  exact blank ⟨command, named, solid⟩

theorem agrees_faulty {fault : Template.Fault} (expands : Template.expand command (shownValues path
      entry (DesktopEntry.hints entry context.locales) targets context) = .error fault) :
    Agrees fs path targets context (some (DesktopEntry.launcher entry context.locales))
      (.error (.template fault.message command)) where
  unreadable_iff := ⟨nofun, nofun⟩
  commandless_iff := ⟨nofun, fun blank => absurd blank.2 (not_commandless reads named solid)⟩
  launchable _ _ _ := ⟨nofun, nofun⟩
  argv_iff argv := by
    refine ⟨nofun, ?_⟩
    rintro ⟨_, entry', command', ⟨⟩, reads', named', -, expands'⟩
    obtain rfl := Except.ok.inj (reads.symm.trans reads')
    obtain rfl := Option.some.inj (named.symm.trans named')
    cases expands.symm.trans expands'

theorem agrees_expanded {plan : LaunchPlan} (expands : Template.expand command (shownValues path
      entry (DesktopEntry.hints entry context.locales) targets context) = .ok plan.argv) :
    Agrees fs path targets context (some (DesktopEntry.launcher entry context.locales))
      (.ok plan) where
  unreadable_iff := ⟨nofun, nofun⟩
  commandless_iff := ⟨nofun, fun blank => absurd blank.2 (not_commandless reads named solid)⟩
  launchable _ _ _ := ⟨nofun, nofun⟩
  argv_iff argv := by
    constructor
    · rintro ⟨_, ⟨⟩, rfl⟩
      exact ⟨_, entry, command, rfl, reads, named, solid, expands⟩
    · rintro ⟨_, entry', command', ⟨⟩, reads', named', -, expands'⟩
      obtain rfl := Except.ok.inj (reads.symm.trans reads')
      obtain rfl := Option.some.inj (named.symm.trans named')
      exact ⟨plan, rfl, Except.ok.inj (expands.symm.trans expands')⟩

end

theorem Planned.agrees {launcher : Option Launcher} {answer : Except Failure (List Text)}
    (planned : Planned fs path targets context launcher answer) (directory : Text) :
    Agrees fs path targets context launcher
      (answer.map fun argv => ⟨directory, argv, context.display⟩) := by
  cases planned with
  | unreadable => exact agrees_unreadable _
  | commandless reads blank => exact agrees_commandless reads blank
  | faulty reads named solid expands => exact agrees_faulty reads named solid expands
  | expanded reads named solid expands => exact agrees_expanded reads named solid expands

end

/-- For every descriptor of a desktop entry the launcher that is shown agrees with the plan. -/
theorem plan_agrees {s : Session} {d : DescriptorId} {x : Descriptor}
    (found : s.descriptors[d]? = some x) (living : x.isAlive)
    (desktop : s.types.nameOf x.contentType = ContentType.desktopEntry)
    (targets : List LaunchTarget) (context : Context) :
    ∃ launcher answer t,
      (Action.launcherOf x.path x.contentType context.locales).runOn s = (.ok launcher, t) ∧
      (Action.plan d targets context).runOn s = (answer, s) ∧
      Agrees s.files x.path targets context launcher answer := by
  obtain ⟨log, shows⟩ := Action.runOn_launcherOf x.path x.contentType context.locales s
  have plans := Action.runOn_plan found living targets context
  rw [if_pos desktop] at plans
  rw [desktop] at shows
  exact ⟨_, _, _, shows, plans, (planned_entryArgv s.files x.path targets context).agrees _⟩

/-- A desktop entry with a name of its own for one locale. -/
def translatedEntry : Node := .created (Utf8.encode
  "[Desktop Entry]\nName=App\nName[de]=Anwendung\nIcon=app\nExec=app %c %i\n") 0o644

/-- A session with a descriptor of that entry. -/
def translated : Session :=
  let opened : Session :=
    { files := { entries := [("/app.desktop", translatedEntry)] }
      types := .new [] Rules.bundled [] }
  opened.after (.resolve "app.desktop" {})

theorem plan_agrees_translated : ∃ launcher answer t,
    (Action.launcherOf "/app.desktop" 0 ["de"]).runOn translated = (.ok (some launcher), t) ∧
    launcher.hints = ⟨some "app", some "Anwendung"⟩ ∧
    (Action.plan 0 [] { locales := ["de"] }).runOn translated = (answer, translated) ∧
    Agrees translated.files "/app.desktop" [] { locales := ["de"] } (some launcher) answer := by
  let x : Descriptor := .new ⟨"/app.desktop"⟩ .regular translatedEntry.attributes 0 0
    (some ⟨some "app", some "App"⟩)
  have found : translated.descriptors[0]? = some x := by decide +kernel
  have desktop : translated.types.nameOf x.contentType = ContentType.desktopEntry := by
    decide +kernel
  have told : ((Action.launcherOf x.path x.contentType ["de"]).runOn translated).1.toOption =
    some (some ⟨⟨some "app", some "Anwendung"⟩, true⟩) := by decide +kernel
  obtain ⟨launcher, answer, t, shows, plans, agrees⟩ :=
    plan_agrees found rfl desktop [] { locales := ["de"] }
  obtain rfl : launcher = some ⟨⟨some "app", some "Anwendung"⟩, true⟩ := by
    simp only [shows] at told
    exact Option.some.inj told
  exact ⟨_, answer, t, shows, rfl, plans, agrees⟩

end LaunchPlan

end FileProfile
