import FileProfile.Text.Blank

/-!
Words of a command template.

A template is cut into words as a shell would do it: single and double quotes, dollar quotes with
their escapes, backslashes, and blanks between words. `Words.split` fails exactly when the template
ends inside a quotation or right after a backslash.
-/

namespace FileProfile

namespace Words

/-- Why a template cannot be cut into words. -/
inductive Fault where
  | openQuotation
  | openEscape
deriving DecidableEq, Repr

def Fault.message : Fault → Text
  | .openQuotation => "Got EOF while in a quoted string"
  | .openEscape => "Got EOF while in an escape sequence"

def backslash : CodeUnit := '\\'

def singleQuote : CodeUnit := '\''

def doubleQuote : CodeUnit := '"'

def dollar : CodeUnit := '$'

/-- Units that separate words outside quotations. -/
def isSeparator (u : CodeUnit) : Bool := u = 0x20 || u = 0x09 || u = 0x0D || u = 0x0A

/-- The escapes of one letter in a dollar quotation and the unit each stands for. -/
def letterEscapes : List (CodeUnit × CodeUnit) :=
  [(0x61, 0x07), (0x62, 0x08), (0x65, 0x1B), (0x45, 0x1B), (0x66, 0x0C), (0x6E, 0x0A),
    (0x72, 0x0D), (0x74, 0x09), (0x76, 0x0B)]

/-- Units that a backslash makes literal in a dollar quotation. -/
def isLiteralEscape (u : CodeUnit) : Bool :=
  u = backslash || u = singleQuote || u = doubleQuote || u = (0x3F : CodeUnit)

/-- How many of the first `most` units are digits of a class. -/
def digitCount (isDigit : CodeUnit → Bool) (most : Nat) (t : Text) : Nat :=
  ((t.take most).takeWhile isDigit).length

/-- A letter and at least one digit. -/
def numericLength (isDigit : CodeUnit → Bool) (most : Nat) (digits : Text) : Nat :=
  match digitCount isDigit most digits with
  | 0 => 0
  | n => n + 1

/-- The units after a backslash that form an escape with it, or 0 where none do. -/
def escapeLength : Text → Nat
  | [] => 0
  | u :: rest =>
    if isLiteralEscape u || letterEscapes.any (·.1 = u) then 1
    else if u.isOctalDigit then digitCount CodeUnit.isOctalDigit 3 (u :: rest)
    else if u = (0x78 : CodeUnit) then numericLength CodeUnit.isHexDigit 2 rest
    else if u = (0x75 : CodeUnit) then numericLength CodeUnit.isHexDigit 4 rest
    else if u = (0x55 : CodeUnit) then numericLength CodeUnit.isHexDigit 8 rest
    else if u = (0x63 : CodeUnit) then
      match rest with
      | [] => 0
      | v :: _ => if v.isLineTerminator then 0 else 2
    else 0

/-- The number that hexadecimal or octal digits spell. -/
def digitsValue (base : Nat) (digits : Text) : Nat :=
  digits.foldl (fun n u => n * base + (u.hexValue?).getD 0) 0

/-- The unit of a control letter. -/
def controlUnit (u : CodeUnit) : CodeUnit :=
  if u = (0x3F : CodeUnit) then 0x7F
  else if u = (0x40 : CodeUnit) then 0
  else u &&& 0x1F

/-- The unit that an escape stands for. A longer escape that ends in `E` means what `E` alone does;
a number is taken modulo 65536. -/
def escapeUnit : Text → CodeUnit
  | [] => backslash
  | u :: rest =>
    if isLiteralEscape u && rest.isEmpty then u
    else if (u :: rest).getLast? = some (0x45 : CodeUnit) then 0x1B
    else
      match letterEscapes.find? (·.1 = u) with
      | some (_, image) => image
      | none =>
        if u.isOctalDigit then (digitsValue 8 (u :: rest)).toUInt16
        else if u = (0x63 : CodeUnit) then controlUnit (rest.headD 0)
        else (digitsValue 16 rest).toUInt16

/-- Resolves the escapes of a dollar quotation, `skip` units being part of the last one. -/
def resolveEscapesFrom (skip : Nat) : Text → Text
  | [] => []
  | u :: rest =>
    match skip with
    | k + 1 => resolveEscapesFrom k rest
    | 0 =>
      if u = backslash then
        match escapeLength rest with
        | 0 => u :: resolveEscapesFrom 0 rest
        | n => escapeUnit (rest.take n) :: resolveEscapesFrom n rest
      else u :: resolveEscapesFrom 0 rest

def resolveEscapes (t : Text) : Text := resolveEscapesFrom 0 t

/-- Resolves the escapes of a double quotation: a backslash before itself or a double quote. -/
def resolveDoubled : Text → Text
  | [] => []
  | [u] => [u]
  | u :: v :: rest =>
    if u = backslash ∧ (v = backslash ∨ v = doubleQuote) then v :: resolveDoubled rest
    else u :: resolveDoubled (v :: rest)

/-- A quotation under way: its mark, and whether a dollar sign stood before it. -/
structure Quotation where
  mark : CodeUnit
  afterDollar : Bool
deriving DecidableEq, Repr

/-- Resolves the escapes of the whole word read so far, as the closing quote requires. -/
def Quotation.close (q : Quotation) (word : Text) : Text :=
  if q.mark = singleQuote then (if q.afterDollar then resolveEscapes word else word)
  else resolveDoubled word

/-- Where the scanner stands: the word under way, the quotation it is in, whether the last unit was
a backslash that escapes the next one, and whether it was a dollar sign that may open a
quotation. -/
structure Scanner where
  word : Option Text := none
  quotation : Option Quotation := none
  escaped : Bool := false
  dollarSeen : Bool := false
deriving DecidableEq, Repr

namespace Scanner

/-- The word under way, lengthened. -/
def add (s : Scanner) (units : Text) : Scanner :=
  { s with word := some (s.word.getD [] ++ units), escaped := false, dollarSeen := false }

/-- One unit: the word that it ends, if any, and the next state. -/
def step (s : Scanner) (u : CodeUnit) : Option Text × Scanner :=
  if s.escaped then
    if u = Text.lineFeed then (none, { s with escaped := false, dollarSeen := false })
    else if s.quotation.isSome then (none, s.add [backslash, u])
    else (none, s.add [u])
  else
    match s.quotation with
    | some q =>
      if u = backslash && (q.afterDollar || q.mark = doubleQuote) then
        (none, { s with escaped := true, dollarSeen := false })
      else if u = q.mark then
        (none, { word := some (q.close (s.word.getD [])) })
      else (none, s.add [u])
    | none =>
      if u = backslash then (none, { s with escaped := true, dollarSeen := false })
      else if u = singleQuote || u = doubleQuote then
        let word := s.word.getD []
        (none, {
          word := some (if s.dollarSeen then word.dropLast else word)
          quotation := some ⟨u, s.dollarSeen⟩ })
      else if isSeparator u then (s.word, {})
      else (none, { s.add [u] with dollarSeen := u = dollar })

/-- The words from a state to the end of the template. -/
def run (s : Scanner) : Text → Except Fault (List Text)
  | [] =>
    if s.quotation.isSome then .error .openQuotation
    else if s.escaped then .error .openEscape
    else .ok s.word.toList
  | u :: rest =>
    match (s.step u).2.run rest with
    | .ok words => .ok ((s.step u).1.toList ++ words)
    | .error fault => .error fault

end Scanner

/-- The words of a template. -/
def split (template : Text) : Except Fault (List Text) := Scanner.run {} template

example : split "a 'b c' d\\ e" = .ok ["a", "b c", "d e"] := by rfl
example : split "a 'b" = .error .openQuotation := by rfl

end Words

end FileProfile
