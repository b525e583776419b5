import FileProfile.ContentType.Rules
import FileProfile.Log
import FileProfile.Text.Basic

/-!
Configurations: what a configuration file may say, and how it is read from a document.

Every field may be left out, and no field besides is allowed.
-/

namespace FileProfile

/-- What a configuration says; a missing field leaves a setting to other sources. -/
structure Config where
  /-- The locales of displayed names, the preferred first. -/
  locales : Option (List Text) := none
  /-- The command in front of a program that runs in a terminal. -/
  terminal : Option (List Text) := none
  /-- The display that launched programs appear on. -/
  display : Option Text := none
  logLevel : Option LogLevel := none
  /-- Content types by suffix that are looked up before the others. -/
  mimeOverrides : Option (Table Text) := none
deriving DecidableEq, Repr

namespace Config

/-- The names of the levels as they stand in messages. -/
def levelChoices : Text :=
  Text.join " | " (LogLevel.all.map fun level => "'" ++ level.name ++ "'")

def asLogLevel (path : List Text) (d : Document) : Checked LogLevel :=
  match d with
  | .string t =>
    match LogLevel.ofName? t with
    | some level => .ok level
    | none =>
      Checked.fail path
        ("Invalid enum value. Expected " ++ levelChoices ++ ", received '" ++ t ++ "'")
  | d => Document.mismatch path levelChoices d

/-- Whether a text is a dot and more without a slash. -/
def isSuffix : Text → Bool
  | u :: rest => u = '.' && !rest.isEmpty && !rest.contains '/'
  | [] => false

def asSuffix (path : List Text) (key : Text) : Checked Text :=
  if isSuffix key then .ok key else Checked.fail path "Suffix must start with a dot"

/-- The units that the parts of a type name are made of. -/
def isTypeUnit (u : CodeUnit) : Bool :=
  u.isLetter || u.isDigit || (("_.+-" : Text).contains u)

/-- Whether a text is two words of type units with a slash between them. -/
def isTypeName (t : Text) : Bool :=
  match Text.splitAt '/' t with
  | [type, subtype] =>
    !type.isEmpty && type.all isTypeUnit && !subtype.isEmpty && subtype.all isTypeUnit
  | _ => false

def asTypeName (path : List Text) (d : Document) : Checked Text :=
  (Document.asString path d).require path "Expected a type/subtype name" isTypeName

def localesKey : Text := "locales"

def terminalKey : Text := "terminal"

def displayKey : Text := "display"

def logLevelKey : Text := "logLevel"

def mimeOverridesKey : Text := "mimeOverrides"

def keys : List Text := [localesKey, terminalKey, displayKey, logLevelKey, mimeOverridesKey]

/-- An issue that names all fields besides the known ones. -/
def onlyKnown (fields : List (Text × Document)) : Checked Unit :=
  match (fields.map Prod.fst).filter fun key => key ∉ keys with
  | [] => .ok ()
  | unknown =>
    Checked.fail []
      ("Unrecognized key(s) in object: "
        ++ Text.join ", " (unknown.map fun key => "'" ++ key ++ "'"))

/-- Reads a configuration from a document. -/
def read (d : Document) : Checked Config :=
  match Document.asRecord [] d with
  | .error found => .error found
  | .ok fields =>
    let locales := Document.optionalField (Document.asList Document.asWord) [] fields localesKey
    let terminal :=
      Document.optionalField (Document.asNonemptyList Document.asWord) [] fields terminalKey
    let display := Document.optionalField Document.asWord [] fields displayKey
    let logLevel := Document.optionalField asLogLevel [] fields logLevelKey
    let mimeOverrides :=
      Document.optionalField (Document.asTable asSuffix asTypeName) [] fields mimeOverridesKey
    (Checked.both locales (Checked.both terminal (Checked.both display
      (Checked.both logLevel (Checked.both mimeOverrides (onlyKnown fields)))))).map
      fun (locales, terminal, display, logLevel, mimeOverrides, _) =>
        { locales, terminal, display, logLevel, mimeOverrides }

end Config

end FileProfile
