import FileProfile.Number.Fraction
import FileProfile.Number.Timestamp

/-!
Documents: the values that configuration texts and output texts hold.

Numbers are doubles. An integer is kept by its value, where plus and minus 2^1024 stand for the
infinities, and any other number as a fraction.
-/

namespace FileProfile

/-- A value of a structured text. -/
inductive Document where
  | null
  | bool (b : Bool)
  | integer (n : Int)
  | fraction (f : Fraction)
  | notANumber
  /-- A point in time, in milliseconds since 1970. -/
  | date (time : Int)
  | string (t : Text)
  | list (items : List Document)
  | record (fields : List (Text × Document))
deriving Repr, Inhabited

namespace Document

/-- The name of a value's type in messages. -/
def typeName : Document → Text
  | .null => "null"
  | .bool _ => "boolean"
  | .integer _ | .fraction _ => "number"
  | .notANumber => "nan"
  | .date _ => "date"
  | .string _ => "string"
  | .list _ => "array"
  | .record _ => "object"

/-- The infinity of a sign. -/
def infinite (negative : Bool) : Document :=
  .integer (if negative then -(Binary64.infinity : Int) else Binary64.infinity)

/-- The double nearest to `m * 10 ^ e` with a sign. Exponents far beyond those of doubles are not
computed with. -/
def ofDecimal (negative : Bool) (m : Nat) (e : Int) : Document :=
  if m = 0 ∨ 3 * e + m.log2 < -1200 then .integer 0
  else if 310 < e then infinite negative
  else
    let steps := Fraction.ofDecimal m e
    if steps % Binary64.stepsPerUnit = 0 then
      let whole := min Binary64.infinity (steps / Binary64.stepsPerUnit)
      .integer (if negative then -(whole : Int) else whole)
    else .fraction { negative, steps }

/-- The index that a key spells, if it spells one. -/
def index? (key : Text) : Option Nat := do
  let n ← Numeral.decimal? key
  guard (n < 0xFFFFFFFF ∧ Numeral.decimal n = key)
  return n

/-- Inserts a field with an index for a key in ascending order of indices. -/
def insertIndexed (n : Nat) (field : Text × Document) :
    List (Text × Document) → List (Text × Document)
  | [] => [field]
  | f :: rest =>
    match index? f.1 with
    | some m => if n < m then field :: f :: rest else f :: insertIndexed n field rest
    | none => field :: f :: rest

/-- A record in the order in which its fields are visited: keys that are indices come first, in
ascending order, then the others as they stand. -/
def ofFields (fields : List (Text × Document)) : Document :=
  let indexed := fields.foldl (fun sorted f =>
    match index? f.1 with
    | some n => insertIndexed n f sorted
    | none => sorted) []
  .record (indexed ++ fields.filter fun f => (index? f.1).isNone)

/-- The value of a field. -/
def find? (fields : List (Text × Document)) (key : Text) : Option Document :=
  (fields.find? fun f => f.1 = key).map Prod.snd

end Document

end FileProfile
