import FileProfile.Text.Basic

/-!
Control sequences of terminals, which take no columns.

A sequence begins with an escape or with U+009B. It is a command, up to the unit that ends it, or a
string behind a closing bracket, up to its terminator.
-/

namespace FileProfile

namespace ControlSequence

def escape : CodeUnit := 0x1B

def introducer : CodeUnit := 0x9B

/-- The length of what ends a string, where a text begins with that. -/
def terminator? : Text → Option Nat
  | [] => none
  | u :: rest =>
    if u = 0x07 ∨ u = 0x9C then some 1
    else if u = escape ∧ rest.head? = some 0x5C then some 2
    else none

/-- The length of a string up to the end of its terminator. -/
def stringLength? : Text → Option Nat
  | [] => none
  | u :: rest =>
    match terminator? (u :: rest) with
    | some n => some n
    | none => (stringLength? rest).map (· + 1)

/-- Units that may stand in front of the numbers of a command. -/
def isLeading (u : CodeUnit) : Bool := ("[]()#;?" : Text).contains u

/-- The marks between numbers. -/
def isMark (u : CodeUnit) : Bool := u = 0x3B || u = 0x3A

/-- Units that end a command. -/
def isFinal (u : CodeUnit) : Bool :=
  u.isDigit || (0x41 ≤ u && u ≤ 0x50) || (0x52 ≤ u && u ≤ 0x54) || u = 0x5A || u = 0x63
    || (0x66 ≤ u && u ≤ 0x6E) || (0x71 ≤ u && u ≤ 0x75) || u = 0x79 || u = 0x3D || u = 0x3E
    || u = 0x3C || u = 0x7E

/-- Numbers of at most four digits with marks between them; `room` digits may come before the next
mark. -/
def numbers : (room : Nat) → Text → Text
  | _, [] => []
  | room, u :: rest =>
    if isMark u then u :: numbers 4 rest
    else if u.isDigit then
      match room with
      | 0 => []
      | room + 1 => u :: numbers room rest
    else []

/-- The length of a command behind its first unit. Where nothing ends it, it ends with the last
digit of its numbers. -/
def commandLength? (t : Text) : Option Nat :=
  let leading := (t.takeWhile isLeading).length
  let body := t.drop leading
  let parameters := if body.head?.any CodeUnit.isDigit then numbers 4 body else []
  if (body.drop parameters.length).head?.any isFinal then some (leading + parameters.length + 1)
  else if parameters ≠ [] then
    some (leading + (parameters.reverse.dropWhile isMark).length)
  else none

/-- The length of the control sequence at the start of a text. -/
def length? : Text → Option Nat
  | [] => none
  | u :: rest =>
    let command := if u = escape ∨ u = introducer then commandLength? rest else none
    let string := if u = escape ∧ rest.head? = some 0x5D then stringLength? (rest.drop 1) else none
    match string with
    | some n => some (n + 2)
    | none => command.map (· + 1)

/-- A text without its control sequences, the first `passed` units being part of one. -/
def removeFrom : (passed : Nat) → Text → Text
  | _, [] => []
  | passed + 1, _ :: rest => removeFrom passed rest
  | 0, u :: rest =>
    match length? (u :: rest) with
    | some n => removeFrom (n - 1) rest
    | none => u :: removeFrom 0 rest

/-- A text without its control sequences. -/
def remove (t : Text) : Text := removeFrom 0 t

example : remove [0x1B, 0x5B, 0x33, 0x31, 0x6D, 0x61] = "a" := by decide
example : remove [0x1B, 0x5D, 0x30, 0x3B, 0x74, 0x07, 0x62] = "b" := by decide

end ControlSequence

end FileProfile
