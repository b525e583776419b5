import FileProfile.Document.Basic
import FileProfile.Table

/-!
Reading typed values out of documents.

A reader gives a value, or all issues it found: what does not fit, where, and why. Parts are read
independently, so the issues of one part do not hide those of the next.
-/

namespace FileProfile

/-- A part of a document that does not fit. -/
structure Issue where
  path : List Text
  message : Text
deriving DecidableEq, Repr

/-- The place of an issue: the keys and indices that lead to it, joined by dots. -/
def Issue.place (i : Issue) : Text := Text.join "." i.path

/-- A value, or the issues found instead. -/
abbrev Checked (α : Type) := Except (List Issue) α

namespace Checked

def fail {α : Type} (path : List Text) (message : Text) : Checked α := .error [⟨path, message⟩]

/-- The issues of a result. -/
def issues {α : Type} : Checked α → List Issue
  | .ok _ => []
  | .error found => found

/-- Both values, or the issues of both. -/
def both {α β : Type} (a : Checked α) (b : Checked β) : Checked (α × β) :=
  match a, b with
  | .ok x, .ok y => .ok (x, y)
  | a, b => .error (a.issues ++ b.issues)

/-- All values, or the issues of all. -/
def all {α : Type} : List (Checked α) → Checked (List α)
  | [] => .ok []
  | a :: rest => (both a (all rest)).map fun (x, xs) => x :: xs

/-- A condition on a value that has been read. -/
def require {α : Type} (path : List Text) (message : Text) (holds : α → Bool) (a : Checked α) :
    Checked α :=
  match a with
  | .ok x => if holds x then .ok x else fail path message
  | .error found => .error found

end Checked

namespace Document

/-- The issue of a value of another type. -/
def mismatch {α : Type} (path : List Text) (expected : Text) (d : Document) : Checked α :=
  Checked.fail path ("Expected " ++ expected ++ ", received " ++ d.typeName)

def asString (path : List Text) : Document → Checked Text
  | .string t => .ok t
  | d => mismatch path "string" d

/-- A string that is not empty. -/
def asWord (path : List Text) (d : Document) : Checked Text :=
  (asString path d).require path "String must contain at least 1 character(s)" fun t => t ≠ []

/-- A list whose items are read by `item`. -/
def asList {α : Type} (item : List Text → Document → Checked α) (path : List Text) :
    Document → Checked (List α)
  | .list items =>
    Checked.all (items.zipIdx.map fun (d, i) => item (path ++ [Numeral.decimal i]) d)
  | d => mismatch path "array" d

/-- A list with an item, whose items are read by `item`. -/
def asNonemptyList {α : Type} (item : List Text → Document → Checked α) (path : List Text)
    (d : Document) : Checked (List α) :=
  match d with
  | .list [] => Checked.fail path "Array must contain at least 1 element(s)"
  | d => asList item path d

/-- A record of any keys: for each field the key is checked and then the value is read. What stands
under the key of the record that all others inherit from is checked, but not kept. -/
def asTable {α : Type} (key : List Text → Text → Checked Text)
    (value : List Text → Document → Checked α) (path : List Text) :
    Document → Checked (Table α)
  | .record fields =>
    (Checked.all (fields.map fun (k, d) =>
      Checked.both (key (path ++ [k]) k) (value (path ++ [k]) d))).map fun entries =>
        entries.filter fun entry => entry.1 ≠ prototypeKey
  | d => mismatch path "object" d

/-- Any key. -/
def anyKey (_ : List Text) (k : Text) : Checked Text := .ok k

/-- The fields of a record. -/
def asRecord (path : List Text) : Document → Checked (List (Text × Document))
  | .record fields => .ok fields
  | d => mismatch path "object" d

/-- A field that may be missing. -/
def optionalField {α : Type} (read : List Text → Document → Checked α) (path : List Text)
    (fields : List (Text × Document)) (key : Text) : Checked (Option α) :=
  match find? fields key with
  | none => .ok none
  | some d => (read (path ++ [key]) d).map some

/-- A field that must be there. -/
def requiredField {α : Type} (read : List Text → Document → Checked α) (path : List Text)
    (fields : List (Text × Document)) (key : Text) : Checked α :=
  match find? fields key with
  | none => Checked.fail (path ++ [key]) "Required"
  | some d => read (path ++ [key]) d

/-- The issue of a negative number where only counts may stand. -/
def belowZero (path : List Text) (negative : Bool) : List Issue :=
  if negative then [⟨path, "Number must be greater than or equal to 0"⟩] else []

/-- An integer that is not negative; both faults of a number are reported. -/
def asCount (path : List Text) (d : Document) : Checked Nat :=
  let uncounted : Issue := ⟨path, "Expected integer, received float"⟩
  match d with
  | .integer n =>
    if !Binary64.isFinite n then .error (uncounted :: belowZero path (n < 0))
    else if 0 ≤ n then .ok n.toNat
    else .error (belowZero path true)
  | .fraction f => .error (uncounted :: belowZero path f.negative)
  | d => mismatch path "number" d

end Document

end FileProfile
