import FileProfile.Document.Basic

/-!
Documents written as JSON with two spaces of indentation.
-/

namespace FileProfile

namespace Document

/-- A lower-case hexadecimal digit. -/
def hexDigitUnit (n : Nat) : CodeUnit := (if n < 10 then 0x30 + n else 0x57 + n).toUInt16

/-- A unit by its number in four hexadecimal digits. -/
def numericEscape (u : CodeUnit) : Text :=
  let n := u.toNat
  "\\u" ++ [hexDigitUnit (n / 0x1000), hexDigitUnit (n / 0x100 % 16), hexDigitUnit (n / 16 % 16),
    hexDigitUnit (n % 16)]

/-- A unit other than a surrogate inside a quoted string. -/
def quotedUnit (u : CodeUnit) : Text :=
  if u = 0x22 then "\\\""
  else if u = 0x5C then "\\\\"
  else if u = 0x08 then "\\b"
  else if u = 0x09 then "\\t"
  else if u = 0x0A then "\\n"
  else if u = 0x0C then "\\f"
  else if u = 0x0D then "\\r"
  else if u < 0x20 then numericEscape u
  else [u]

/-- The inside of a quoted string. Pairs of surrogates stand as they are and a lone surrogate is
written by its number. -/
def quotedBody : Text → Text
  | [] => []
  | [u] => if u.isHighSurrogate || u.isLowSurrogate then numericEscape u else quotedUnit u
  | u :: v :: rest =>
    if u.isHighSurrogate && v.isLowSurrogate then u :: v :: quotedBody rest
    else
      (if u.isHighSurrogate || u.isLowSurrogate then numericEscape u else quotedUnit u)
        ++ quotedBody (v :: rest)

def quoted (t : Text) : Text := "\"" ++ quotedBody t ++ "\""

/-- A line break and the indentation of a level. -/
def newline (level : Nat) : Text := (0x0A : CodeUnit) :: List.replicate (2 * level) 0x20

mutual

/-- The JSON text of a document at a level of indentation. What is no finite number is written as
null, and so is a date without a calendar form. -/
def write (level : Nat) : Document → Text
  | .null => "null"
  | .bool b => if b then "true" else "false"
  | .integer n => if Binary64.isFinite n then Binary64.text n else "null"
  | .fraction f => f.text
  | .notANumber => "null"
  | .date time => ((Timestamp.text? time).map quoted).getD "null"
  | .string t => quoted t
  | .list [] => "[]"
  | .list (item :: items) =>
    "[" ++ newline (level + 1) ++ write (level + 1) item ++ writeItems (level + 1) items
      ++ newline level ++ "]"
  | .record [] => "\x7b\x7d"
  | .record ((key, value) :: fields) =>
    "\x7b" ++ newline (level + 1) ++ quoted key ++ ": " ++ write (level + 1) value
      ++ writeFields (level + 1) fields ++ newline level ++ "\x7d"

/-- Further items, each behind a comma and on a line of its own. -/
def writeItems (level : Nat) : List Document → Text
  | [] => []
  | item :: items => "," ++ newline level ++ write level item ++ writeItems level items

/-- Further fields, each behind a comma and on a line of its own. -/
def writeFields (level : Nat) : List (Text × Document) → Text
  | [] => []
  | (key, value) :: fields =>
    "," ++ newline level ++ quoted key ++ ": " ++ write level value ++ writeFields level fields

end

/-- The JSON text of a document. -/
def toJsonText (d : Document) : Text := write 0 d

end Document

end FileProfile
