import FileProfile.ContentType.Bundled
import FileProfile.Descriptor.Resolve
import FileProfile.Settings.Config

/-!
Settings: what is in effect once the command line, the configuration, the environment and the
defaults are put together. The earlier source wins.
-/

namespace FileProfile

/-- The variables of the environment that matter. -/
structure Environment where
  preferences : Locale.Preferences := {}
  display : Option Text := none
  logLevel : Option Text := none
deriving DecidableEq, Repr

/-- What the command line says. -/
structure Overrides where
  locales : Option (List Text) := none
  logLevel : Option LogLevel := none
deriving DecidableEq, Repr

structure Settings where
  locales : List Text
  terminalCommand : List Text
  display : Option Text
  logLevel : LogLevel
  mimeOverrides : Table Text
deriving DecidableEq, Repr

namespace Settings

/-- A list that is given and not empty. -/
def given (locales : Option (List Text)) : Option (List Text) := locales.filter fun l => l ≠ []

def defaultLogLevel : LogLevel := .warn

/-- The settings in effect. -/
def resolve (config : Config) (environment : Environment) (overrides : Overrides) : Settings where
  locales :=
    match given overrides.locales <|> given config.locales with
    | some names => Locale.normalize names
    | none => environment.preferences.names
  terminalCommand := config.terminal.getD defaultTerminalCommand
  display := config.display <|> Locale.nonEmpty environment.display
  logLevel :=
    (overrides.logLevel <|> config.logLevel <|> environment.logLevel.bind LogLevel.ofName?).getD
      defaultLogLevel
  mimeOverrides := config.mimeOverrides.getD []

/-- The surroundings of operations under the settings. -/
def context (s : Settings) (random : Octets) : Context where
  locales := s.locales
  terminalCommand := s.terminalCommand
  display := s.display
  random

/-- A session on files, with a new store of content types. -/
def session (s : Settings) (extensions : Table Text) (files : FileSystem) : Session where
  files
  types := TypeStore.new extensions Rules.bundled s.mimeOverrides

end Settings

end FileProfile
