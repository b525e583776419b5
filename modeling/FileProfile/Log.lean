import FileProfile.Text.Basic

/-!
Log messages and the levels that decide which of them are shown.
-/

namespace FileProfile

/-- How much a message matters, the most important first. -/
inductive Severity where
  | warn
  | info
  | debug
deriving DecidableEq, Repr

/-- The threshold of a logger, quietest first. -/
inductive LogLevel where
  | silent
  | warn
  | info
  | debug
deriving DecidableEq, Repr

namespace Severity

def all : List Severity := [.warn, .info, .debug]

def name : Severity → Text
  | .warn => "warn"
  | .info => "info"
  | .debug => "debug"

def rank : Severity → Nat
  | .warn => 1
  | .info => 2
  | .debug => 3

def ofName? (name : Text) : Option Severity := all.find? fun s => s.name = name

end Severity

namespace LogLevel

def all : List LogLevel := [.silent, .warn, .info, .debug]

def name : LogLevel → Text
  | .silent => "silent"
  | .warn => "warn"
  | .info => "info"
  | .debug => "debug"

def rank : LogLevel → Nat
  | .silent => 0
  | .warn => 1
  | .info => 2
  | .debug => 3

def ofName? (name : Text) : Option LogLevel := all.find? fun l => l.name = name

/-- Whether a message of severity `s` is shown at threshold `l`. -/
def shows (l : LogLevel) (s : Severity) : Bool := s.rank ≤ l.rank

end LogLevel

/-- A logged message. -/
structure LogEntry where
  severity : Severity
  message : Text
deriving DecidableEq, Repr

namespace LogEntry

/-- The entry as a line on the console. -/
def line (e : LogEntry) : Text := "[" ++ e.severity.name ++ "] " ++ e.message

/-- The lines that a console with threshold `l` shows. -/
def shown (l : LogLevel) (entries : List LogEntry) : List Text :=
  (entries.filter fun e => l.shows e.severity).map line

end LogEntry

end FileProfile
