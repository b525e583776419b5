import FileProfile.Text.Basic

/-!
Escapes in key-file values.

`escape` writes line breaks, tabs, backslashes and leading spaces as escapes, so a value stays on
its line and survives the trimming behind the equals sign; `unescape` undoes it and leaves unknown
escapes as they are.
-/

namespace FileProfile

namespace KeyFile

def backslash : CodeUnit := '\\'

/-- The letters of the escapes and the unit each stands for. -/
def escapeLetters : List (CodeUnit × CodeUnit) :=
  [('s', 0x20), ('n', 0x0A), ('t', 0x09), ('r', 0x0D), ('\\', 0x5C)]

/-- The unit that an escape letter stands for. -/
def escapedUnit? (letter : CodeUnit) : Option CodeUnit :=
  (escapeLetters.find? fun entry => entry.1 = letter).map Prod.snd

/-- Decodes the escapes of a value. -/
def unescape : Text → Text
  | [] => []
  | [u] => [u]
  | u :: v :: rest =>
    if u = backslash then
      match escapedUnit? v with
      | some image => image :: unescape rest
      | none => u :: v :: unescape rest
    else u :: unescape (v :: rest)

/-- The written form of a unit behind the leading spaces. -/
def escapeUnit (u : CodeUnit) : Text :=
  if u = backslash then "\\\\"
  else if u = 0x0A then "\\n"
  else if u = 0x09 then "\\t"
  else if u = 0x0D then "\\r"
  else [u]

/-- Encodes a value; each leading space is an escape of its own. -/
def escape : Text → Text
  | [] => []
  | u :: rest =>
    if u = 0x20 then "\\s" ++ escape rest
    else (u :: rest).flatMap escapeUnit

example : escape "  a b\\\n" = "\\s\\sa b\\\\\\n" := by decide
example : unescape "\\s\\q\\" = " \\q\\" := by decide

end KeyFile

end FileProfile
