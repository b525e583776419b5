import FileProfile.Launch.Quoted

/-!
Command templates with field codes.

`Template.parse` reads a template into arguments without looking at any value; `Argument.expand`
puts the values in. A field code that is a whole argument may expand to several arguments or to
none; inside a longer argument it expands in place. Values are never read again, so no value can
add, split or unquote an argument.
-/

namespace FileProfile

/-- A file handed to the launched program. -/
structure LaunchTarget where
  path : Text
  uri : Text
deriving DecidableEq, Repr

/-- The values that field codes stand for, and the terminal to run in. -/
structure LaunchValues where
  targets : List LaunchTarget := []
  icon : Option Text := none
  name : Option Text := none
  desktopFile : Option Text := none
  terminal : Bool := false
  terminalCommand : Option (List Text) := none
deriving DecidableEq, Repr

/-- The command in front of a program that runs in a terminal. -/
def defaultTerminalCommand : List Text := ["xterm", "-e"]

namespace Template

/-- What a percent sign and a letter stand for. -/
inductive FieldCode where
  | path
  | paths
  | uri
  | uris
  | icon
  | name
  | desktopFile
  | deprecated
deriving DecidableEq, Repr

/-- Why a template cannot be expanded. -/
inductive Fault where
  | words (fault : Words.Fault)
  | trailingPercent
  | unknownCode (code : CodeUnit)
  | emptyCommand
deriving DecidableEq, Repr

def Fault.message : Fault → Text
  | .words fault => fault.message
  | .trailingPercent => "Trailing \"%\" at end of argument"
  | .unknownCode code => "Unknown field code \"%" ++ [code] ++ "\""
  | .emptyCommand => "Empty command"

def percent : CodeUnit := '%'

/-- The letters of the field codes. -/
def fieldCodes : List (CodeUnit × FieldCode) :=
  [('f', .path), ('F', .paths), ('u', .uri), ('U', .uris), ('i', .icon), ('c', .name),
    ('k', .desktopFile), ('d', .deprecated), ('D', .deprecated), ('n', .deprecated),
    ('N', .deprecated), ('v', .deprecated), ('m', .deprecated)]

def fieldCode? (u : CodeUnit) : Option FieldCode :=
  (fieldCodes.find? fun entry => entry.1 = u).map Prod.snd

/-- A part of an argument: a unit as it stands, or a field code. -/
inductive Piece where
  | unit (u : CodeUnit)
  | field (code : FieldCode)
deriving DecidableEq, Repr

/-- An argument of a template: a field code alone, or pieces that make up one argument. -/
inductive Argument where
  | alone (code : FieldCode)
  | pieces (ps : List Piece)
deriving DecidableEq, Repr

/-- The pieces of a word; two percent signs stand for one. -/
def pieces : Text → Except Fault (List Piece)
  | [] => .ok []
  | [u] => if u = percent then .error .trailingPercent else .ok [.unit u]
  | u :: v :: rest =>
    if u = percent then
      if v = percent then (pieces rest).map (.unit percent :: ·)
      else
        match fieldCode? v with
        | some code => (pieces rest).map (.field code :: ·)
        | none => .error (.unknownCode v)
    else (pieces (v :: rest)).map (.unit u :: ·)

/-- The field code that is the whole word. -/
def standalone? : Text → Option FieldCode
  | [u, v] => if u = percent then fieldCode? v else none
  | _ => none

def argument (word : Text) : Except Fault Argument :=
  match standalone? word with
  | some code => .ok (.alone code)
  | none => (pieces word).map .pieces

/-- The arguments of words, up to the first that is at fault. -/
def arguments : List Text → Except Fault (List Argument)
  | [] => .ok []
  | word :: rest => do
    let first ← argument word
    let others ← arguments rest
    return first :: others

/-- The arguments of a template. -/
def parse (template : Text) : Except Fault (List Argument) :=
  match Words.split template with
  | .ok words => arguments words
  | .error fault => .error (.words fault)

/-- A value that is present and not empty, as the only argument. -/
def whenGiven (value : Option Text) (f : Text → List Text) : List Text :=
  match value with
  | some v => if v = [] then [] else f v
  | none => []

/-- The arguments that a field code alone expands to. -/
def FieldCode.arguments (values : LaunchValues) : FieldCode → List Text
  | .path => (values.targets.head?.map LaunchTarget.path).toList
  | .paths => values.targets.map LaunchTarget.path
  | .uri => (values.targets.head?.map LaunchTarget.uri).toList
  | .uris => values.targets.map LaunchTarget.uri
  | .icon => whenGiven values.icon fun icon => ["--icon", icon]
  | .name => whenGiven values.name fun name => [name]
  | .desktopFile => whenGiven values.desktopFile fun file => [file]
  | .deprecated => []

/-- The text that a field code expands to inside an argument: its arguments, a space between
neighbours. -/
def FieldCode.text (values : LaunchValues) (code : FieldCode) : Text :=
  Text.join " " (code.arguments values)

def Piece.expand (values : LaunchValues) : Piece → Text
  | .unit u => [u]
  | .field code => code.text values

def Argument.expand (values : LaunchValues) : Argument → List Text
  | .alone code => code.arguments values
  | .pieces ps => [ps.flatMap (Piece.expand values)]

/-- The command in front of the expanded arguments. -/
def terminalPart (values : LaunchValues) : List Text :=
  if values.terminal then values.terminalCommand.getD defaultTerminalCommand else []

/-- The argument vector of a template. -/
def expand (template : Text) (values : LaunchValues) : Except Fault (List Text) := do
  let parts ← parse template
  let argv := parts.flatMap (Argument.expand values)
  if argv = [] then throw .emptyCommand
  return terminalPart values ++ argv

/-- The template of one literal argument. -/
def quoteArgument (value : Text) : Text :=
  Quoted.word (Text.replaceUnit percent "%%" value)

example : expand "gimp %F" { targets := [⟨"/tmp/a b.png", "file:///tmp/a%20b.png"⟩] } =
    .ok ["gimp", "/tmp/a b.png"] := by rfl
example : expand (quoteArgument "100% 'a'") {} = .ok ["100% 'a'"] := by rfl

end Template

end FileProfile
