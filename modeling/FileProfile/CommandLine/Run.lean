import FileProfile.CommandLine.Arguments
import FileProfile.Descriptor.Rename
import FileProfile.Report
import FileProfile.Settings.Basic
import FileProfile.Settings.Search

/-!
Running a command line on a file system.

Nothing here reads or writes anything outside: what is printed, the exit code and the files that the
run leaves are its outcome.
-/

namespace FileProfile

/-- The settings of an invocation under a configuration. -/
def Invocation.settings (invocation : Invocation) (config : Config) (environment : Environment) :
    Settings :=
  Settings.resolve config environment
    { locales := invocation.options.locales, logLevel := invocation.options.logLevel }

namespace CommandLine

/-- The configuration of a run: the file that is named, else the one that is found. -/
def loadConfig (files : FileSystem) (options : GlobalOptions) : Except Failure Config :=
  match Locale.nonEmpty options.config with
  | some path => Config.load files (files.absolute path)
  | none =>
    (Config.find files files.workingDirectory).map fun found =>
      (found.map Config.Found.config).getD {}

/-- Resolves paths behind descriptors that are resolved already, which are released where a path
fails. -/
def resolveAll (context : Context) (resolved : List DescriptorId) :
    List Text → Action (List DescriptorId)
  | [] => pure resolved
  | path :: rest => do
    let d ←
      try Action.resolve path context
      catch e =>
        Action.unrefAll resolved
        throw e
    resolveAll context (resolved ++ [d]) rest

def printPanels : List DescriptorId → Action Unit
  | [] => pure ()
  | d :: rest => do
    Action.print (← Action.panel d)
    printPanels rest

/-- Does something with a descriptor, which is released where that fails. -/
def guarded (d : DescriptorId) (body : Action Unit) : Action Unit := do
  try body
  catch e =>
    Action.unref d
    throw e

/-- Runs a command and answers the descriptors that it leaves to be released. -/
def perform (context : Context) : Command → Action (List DescriptorId)
  | .info json paths => do
    let ds ← resolveAll context [] paths
    if json then Action.print (← Action.jsonText ds) else printPanels ds
    return ds
  | .rename path name => do
    let d ← Action.resolve path context
    guarded d (Action.rename d name context)
    Action.record .info ("Renamed " ++ path ++ " to " ++ name)
    Action.print (← Action.alive d).path
    return [d]
  | .plan path targets => do
    let d ← Action.resolve path context
    let start := (← Action.files).workingDirectory
    guarded d do
      let opened := targets.map fun target =>
        let identity := Identity.forPath start target
        { path := identity.path, uri := identity.uri : LaunchTarget }
      Action.print (← Action.plan d opened context).toJsonText
    return [d]

/-- Runs a command, releases what it leaves, and shuts the content types down in any case. -/
def supervise (context : Context) (command : Command) : Action Unit := do
  Action.record .debug ("Locales: " ++ Text.join ", " context.locales)
  match ← Action.outcome (perform context command) with
  | .ok ds =>
    Action.unrefAll ds
    Action.shutdownTypes
  | .error e =>
    Action.shutdownTypes
    throw e

/-- What a run finds on the machine besides the files and the environment. -/
structure Host where
  /-- Well-known extensions of file names, in lower case and without their dot, and their types. -/
  extensions : Table Text := []
  /-- Octets drawn at random. -/
  random : Octets := []

/-- What a run leaves. -/
structure Outcome where
  exitCode : Nat
  stdout : List Text
  stderr : List Text
  files : FileSystem
  /-- The session at the end, where one was opened. -/
  session : Option Session
deriving Repr

/-- The line about a failure. -/
def failureLine (e : Failure) : Text := "Error: " ++ e.userMessage

/-- Runs a command under settings. -/
def runUnder (settings : Settings) (files : FileSystem) (host : Host) (command : Command) :
    Outcome :=
  let (answer, session) :=
    (supervise (settings.context host.random) command).runOn
      (settings.session host.extensions files)
  let shown := LogEntry.shown settings.logLevel session.log
  match answer with
  | .ok () => ⟨0, session.output, shown, session.files, some session⟩
  | .error e => ⟨1, session.output, shown ++ [failureLine e], session.files, some session⟩

/-- Runs a command line in the working directory of a file system. -/
def run (args : List Text) (files : FileSystem) (environment : Environment) (host : Host) :
    Outcome :=
  match parse args with
  | .error (.answered text) => ⟨0, [text], [], files, none⟩
  | .error (.rejected text) => ⟨1, [], [text], files, none⟩
  | .ok invocation =>
    match loadConfig files invocation.options with
    | .error e => ⟨1, [], [failureLine e], files, none⟩
    | .ok config =>
      runUnder (invocation.settings config environment) files host invocation.command

end CommandLine

end FileProfile
