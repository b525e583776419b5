import FileProfile.Document.Basic

/-!
The values of plain words: nothing, truth values, numbers, dates, and text for all others.
-/

namespace FileProfile

namespace Document

/-- A sign and what follows it. -/
def signed : Text → Bool × Text
  | [] => (false, [])
  | u :: rest =>
    if u = (0x2D : CodeUnit) then (true, rest)
    else if u = (0x2B : CodeUnit) then (false, rest)
    else (false, u :: rest)

/-- The number that digits of a base spell, where there is a digit. -/
def digits? (base : Nat) (t : Text) : Option Nat :=
  if t = [] then none
  else t.foldlM (fun n u => do
    let d ← u.hexValue?
    guard (d < base)
    return n * base + d) 0

/-- The magnitude of an integer: decimal, or with the mark of base 2, 8 or 16 in front. -/
def magnitude? (t : Text) : Option Nat :=
  match t with
  | 0x30 :: 0x62 :: rest => digits? 2 rest
  | 0x30 :: 0x6F :: rest => digits? 8 rest
  | 0x30 :: 0x78 :: rest => digits? 16 rest
  | t => Numeral.decimal? t

/-- A finite number; what lies beyond the greatest double is none. -/
def finite? (d : Document) : Option Document :=
  match d with
  | .integer n => if Binary64.isFinite n then some d else none
  | d => some d

def integer? (t : Text) : Option Document := do
  let (negative, body) := signed t
  let n ← magnitude? body
  finite? (.integer (Binary64.ofInt (if negative then -(n : Int) else n)))

/-- The power of ten behind a mantissa: none is written, or a letter, a sign and digits. -/
def exponent? : Text → Option Int
  | [] => some 0
  | u :: rest =>
    if u = 0x65 ∨ u = 0x45 then
      let (down, body) := signed rest
      (Numeral.decimal? body).map fun n => if down then -(n : Int) else n
    else none

/-- A decimal number. Without digits in front of the point there must be one behind it, and no
sign. -/
def decimal? (t : Text) : Option Document := do
  let (negative, body) := signed t
  let whole := body.takeWhile CodeUnit.isDigit
  let (places, rest) :=
    match body.dropWhile CodeUnit.isDigit with
    | 0x2E :: more => (more.takeWhile CodeUnit.isDigit, more.dropWhile CodeUnit.isDigit)
    | rest => ([], rest)
  guard (whole ≠ [] ∨ (places ≠ [] ∧ body = t))
  let exponent ← exponent? rest
  let mantissa ← Numeral.decimal? (whole ++ places)
  finite? (ofDecimal negative mantissa (exponent - places.length))

/-- The words for what is no finite number. -/
def unbounded? (t : Text) : Option Document :=
  let (negative, body) := signed t
  if body ∈ ([".inf", ".Inf", ".INF"] : List Text) then some (infinite negative)
  else if t ∈ ([".nan", ".NaN", ".NAN"] : List Text) then some .notANumber
  else none

/-! ## Dates -/

/-- The number that all units of a text spell, where it has from `least` to `most` of them. -/
def count? (least most : Nat) (t : Text) : Option Nat :=
  if least ≤ t.length ∧ t.length ≤ most then Numeral.decimal? t else none

/-- A year of four digits, a month and a day, with `least` or two digits each. -/
def day? (least : Nat) (t : Text) : Option Int :=
  match Text.splitAt 0x2D t with
  | [year, month, day] => do
    let y ← count? 4 4 year
    let m ← count? least 2 month
    let d ← count? least 2 day
    let full := if y < 100 then y + 1900 else y
    return (Timestamp.daysOfMonth (full * 12 + m - 1) + d - 1) * 86400000
  | _ => none

/-- The milliseconds that places behind the second spell. -/
def milliseconds? (t : Text) : Option Nat :=
  if t.all CodeUnit.isDigit then Numeral.decimal? (Text.padEnd 3 0x30 (t.take 3)) else none

/-- Hours, minutes, seconds and places behind the second. -/
def clock? (t : Text) : Option Int :=
  match Text.splitAt 0x3A t with
  | [hour, minute, second] => do
    let h ← count? 1 2 hour
    let m ← count? 2 2 minute
    let s ← count? 2 2 (second.take 2)
    let ms ←
      match second.drop 2 with
      | [] => some 0
      | 0x2E :: places => milliseconds? places
      | _ => none
    return ((h * 60 + m) * 60 + s) * 1000 + ms
  | _ => none

/-- How far the clock of a zone is ahead of universal time: hours, and minutes where there are. -/
def zone? (t : Text) : Option Int :=
  match Text.splitAt 0x3A t with
  | [hour] => (count? 1 2 hour).map fun h => h * 3600000
  | [hour, minute] => do return ((← count? 1 2 hour) * 60 + (← count? 2 2 minute)) * 60000
  | _ => none

/-- A clock time, and the zone of the clock behind it. -/
def zonedClock? (t : Text) : Option Int :=
  let isBlank (u : CodeUnit) : Bool := u = 0x20 || u = 0x09
  let isClock (u : CodeUnit) : Bool := u.isDigit || u = 0x3A || u = 0x2E
  let clock := t.takeWhile isClock
  match (t.dropWhile isClock).dropWhile isBlank with
  | [] => if t.dropWhile isClock = [] then clock? clock else none
  | [0x5A] => clock? clock
  | 0x2B :: zone => do return (← clock? clock) - (← zone? zone)
  | 0x2D :: zone => do return (← clock? clock) + (← zone? zone)
  | _ => none

/-- A day, or a day and a clock time with a letter or blanks between them. -/
def date? (t : Text) : Option Document :=
  let isDay (u : CodeUnit) : Bool := u.isDigit || u = 0x2D
  let isBlank (u : CodeUnit) : Bool := u = 0x20 || u = 0x09
  let day := t.takeWhile isDay
  match t.dropWhile isDay with
  | [] => (day? 2 day).map .date
  | u :: rest =>
    if u = 0x54 ∨ u = 0x74 then do return .date ((← day? 1 day) + (← zonedClock? rest))
    else if isBlank u then do
      return .date ((← day? 1 day) + (← zonedClock? (rest.dropWhile isBlank)))
    else none

/-- The value of a plain word. -/
def ofPlain (t : Text) : Document :=
  if t ∈ (["~", "null", "Null", "NULL"] : List Text) then .null
  else if t ∈ (["true", "True", "TRUE"] : List Text) then .bool true
  else if t ∈ (["false", "False", "FALSE"] : List Text) then .bool false
  else (integer? t <|> decimal? t <|> unbounded? t <|> date? t).getD (.string t)

end Document

end FileProfile
