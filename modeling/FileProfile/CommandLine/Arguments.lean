import FileProfile.CommandLine.Options
import FileProfile.CommandLine.Usage
import FileProfile.Log

/-!
Reading a command line into a command and global options.

Global options stand before or behind the command. Reading stops at the first fault, or where the
version or help is asked for.
-/

namespace FileProfile

/-- What to do. -/
inductive Command where
  | info (json : Bool) (paths : List Text)
  | rename (path name : Text)
  | plan (path : Text) (targets : List Text)
deriving DecidableEq, Repr

/-- The options that hold for every command. -/
structure GlobalOptions where
  config : Option Text := none
  locales : Option (List Text) := none
  logLevel : Option LogLevel := none
deriving DecidableEq, Repr

/-- A command to run under options. -/
structure Invocation where
  options : GlobalOptions
  command : Command
deriving DecidableEq, Repr

/-- Why nothing is run: a text was asked for, or the command line is at fault. -/
inductive Refusal where
  | answered (text : Text)
  | rejected (text : Text)
deriving DecidableEq, Repr

namespace CommandLine

def versionOption : OptionSpec where
  short := some "-V"
  long := "--version"
  flags := "-V, --version"

def configOption : OptionSpec where
  short := some "-c"
  long := "--config"
  flags := "-c, --config <path>"
  takesValue := true

def localeOption : OptionSpec where
  short := some "-l"
  long := "--locale"
  flags := "-l, --locale <locale...>"
  takesValue := true
  takesMore := true

def logLevelOption : OptionSpec where
  short := some "-v"
  long := "--log-level"
  flags := "-v, --log-level <level>"
  takesValue := true

def jsonOption : OptionSpec where
  short := none
  long := "--json"
  flags := "--json"

def helpOption : OptionSpec where
  short := some "-h"
  long := "--help"
  flags := "-h, --help"

def globalOptions : List OptionSpec := [versionOption, configOption, localeOption, logLevelOption]

/-- A command before its arguments are read. -/
inductive CommandName where
  | info
  | rename
  | plan
deriving DecidableEq, Repr

namespace CommandName

def all : List CommandName := [.info, .rename, .plan]

def name : CommandName → Text
  | .info => "info"
  | .rename => "rename"
  | .plan => "plan"

def ofName? (name : Text) : Option CommandName := all.find? fun c => c.name = name

def options : CommandName → List OptionSpec
  | .info => [jsonOption]
  | .rename | .plan => []

def usage : CommandName → Text
  | .info => Usage.page Usage.infoLines
  | .rename => Usage.page Usage.renameLines
  | .plan => Usage.page Usage.planLines

end CommandName

def helpName : Text := "help"

/-- The page about the program. -/
def usage : Text := Usage.page Usage.programLines

/-! ## Faults -/

def missingValue (o : OptionSpec) : Refusal :=
  .rejected ("error: option '" ++ o.flags ++ "' argument missing")

def invalidLogLevel (value : Text) : Refusal :=
  .rejected ("error: option '" ++ logLevelOption.flags ++ "' argument '" ++ value
    ++ "' is invalid. Log level must be one of: "
    ++ Text.join ", " (LogLevel.all.map LogLevel.name))

def missingArgument (name : String) : Refusal :=
  .rejected ("error: missing required argument '" ++ name ++ "'")

/-- An unknown option, with a suggestion where it is a long one. -/
def unknownOption (known : List OptionSpec) (arg : Text) : Refusal :=
  .rejected ("error: unknown option '" ++ arg ++ "'"
    ++ (if Options.terminator.isPrefixOf arg then
          Options.suggestion arg (known.map OptionSpec.long)
        else []))

def unknownCommand (name : Text) : Refusal :=
  .rejected ("error: unknown command '" ++ name ++ "'"
    ++ Options.suggestion name (CommandName.all.map CommandName.name ++ [helpName]))

/-! ## Reading -/

/-- Takes a global option with its value. -/
def setGlobal (options : GlobalOptions) (o : OptionSpec) (value : Option Text) :
    Except Refusal GlobalOptions :=
  match value with
  | none => .error (.answered Usage.version)
  | some v =>
    if o = configOption then .ok { options with config := some v }
    else if o = localeOption then
      .ok { options with locales := some (options.locales.getD [] ++ [v]) }
    else
      match LogLevel.ofName? v with
      | some level => .ok { options with logLevel := some level }
      | none => .error (invalidLogLevel v)

/-- The global options among items. The last value of an option counts, and locales are
collected. -/
def readGlobals (options : GlobalOptions) : List Item → Except Refusal GlobalOptions
  | [] => .ok options
  | .option o value :: rest => do
    let options ← setGlobal options o value
    readGlobals options rest
  | .missing o :: _ => .error (missingValue o)
  | .operand _ :: rest | .unknown _ :: rest => readGlobals options rest

def asksForHelp (unknown : List Text) : Bool := unknown.any helpOption.isFor

/-- A command with its arguments; arguments in excess do not count. -/
def commandOf (name : CommandName) (json : Bool) (args : List Text) : Except Refusal Command :=
  match name, args with
  | .info, [] => .error (missingArgument "paths")
  | .info, paths => .ok (.info json paths)
  | .rename, [] => .error (missingArgument "path")
  | .rename, [_] => .error (missingArgument "name")
  | .rename, path :: newName :: _ => .ok (.rename path newName)
  | .plan, [] => .error (missingArgument "path")
  | .plan, path :: targets => .ok (.plan path targets)

/-- Reads the arguments of a command: those that stand before any unknown option, and those that
were not known. -/
def readCommand (name : CommandName) (args unknown : List Text) : Except Refusal Command :=
  let items := Options.scan name.options unknown
  let left := Options.unknowns items
  if asksForHelp left then .error (.answered name.usage)
  else
    match left with
    | arg :: _ =>
      .error (unknownOption (name.options ++ [helpOption] ++ globalOptions ++ [helpOption]) arg)
    | [] =>
      let json := items.any fun item => item = .option jsonOption none
      commandOf name json (args ++ Options.operands items)

/-- The help on a command, or on the program where none is named. -/
def help : List Text → Refusal
  | [] => .answered usage
  | name :: _ =>
    if name = [] then .answered usage
    else
      match CommandName.ofName? name with
      | some command => .answered command.usage
      | none => .rejected usage

/-- The command among operands, or the refusal where there is none. -/
def dispatch (operands unknown : List Text) : Except Refusal Command :=
  match operands with
  | name :: args =>
    match CommandName.ofName? name with
    | some command => readCommand command args unknown
    | none =>
      if name = helpName then .error (help args)
      else if asksForHelp unknown then .error (.answered usage)
      else .error (unknownCommand name)
  | [] =>
    match unknown with
    | [] => .error (.rejected usage)
    | arg :: _ =>
      if asksForHelp unknown then .error (.answered usage)
      else .error (unknownOption (globalOptions ++ [helpOption]) arg)

/-- Reads a command line. -/
def parse (args : List Text) : Except Refusal Invocation := do
  let items := Options.scan globalOptions args
  let options ← readGlobals {} items
  let command ← dispatch (Options.operands items) (Options.unknowns items)
  return { options, command }

end CommandLine

end FileProfile
