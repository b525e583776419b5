import FileProfile.Document.Basic
import FileProfile.Document.SyntaxFault

/-!
The fields of a record while it is read.

Keys are texts, so a key of another type is written out. A key may stand once, but fields that were
merged in from another record give way to those that are written.
-/

namespace FileProfile

namespace Document

/-- A key that is no list as a text. -/
def plainKeyText : Document → Text
  | .null => "null"
  | .bool b => if b then "true" else "false"
  | .integer n => Binary64.text n
  | .fraction f => f.text
  | .notANumber => "NaN"
  | .date time => Timestamp.longText time
  | .string t => t
  | .list _ => []
  | .record _ => "[object Object]"

/-- An item of a list that is a key, as a text. -/
def itemKeyText : Document → Except SyntaxCause Text
  | .null => .ok []
  | .list _ => .error .nestedListInKey
  | d => .ok (plainKeyText d)

/-- A key as a text: the items of a list are joined by commas, and lists within it are refused. -/
def keyText : Document → Except SyntaxCause Text
  | .list items => (items.mapM itemKeyText).map (Text.join ",")
  | d => .ok (plainKeyText d)

/-- The fields read so far, the latest first, and the keys of those that were merged in and not
written since. -/
structure PartialRecord where
  fields : List (Text × Document) := []
  merged : List Text := []

namespace PartialRecord

def contains (r : PartialRecord) (key : Text) : Bool := r.fields.any fun f => f.1 = key

/-- Adds a written field. It takes the place of a merged one, and meets no other of its key. -/
def add (r : PartialRecord) (key : Text) (value : Document) :
    Except SyntaxCause PartialRecord :=
  if !r.contains key then .ok { r with fields := (key, value) :: r.fields }
  else if r.merged.contains key then
    .ok {
      fields := r.fields.map fun f => if f.1 = key then (key, value) else f
      merged := r.merged.filter fun k => k ≠ key }
  else .error .repeatedKey

/-- Adds a field from another record where its key is not there. -/
def addMerged (r : PartialRecord) (field : Text × Document) : PartialRecord :=
  if r.contains field.1 then r
  else { fields := field :: r.fields, merged := field.1 :: r.merged }

/-- The fields of a value that may be merged in; those of a list go by its indices. -/
def source? : Document → Option (List (Text × Document))
  | .record fields => some fields
  | .list items => some (items.zipIdx.map fun (d, i) => (Numeral.decimal i, d))
  | .date _ => some []
  | _ => none

/-- Merges the fields of a value in. -/
def mergeOne (r : PartialRecord) (value : Document) : Except SyntaxCause PartialRecord :=
  match source? value with
  | some fields => .ok (fields.foldl addMerged r)
  | none => .error .unmergeable

/-- Merges a record in, or the records of a list, the first counting most. -/
def merge (r : PartialRecord) : Document → Except SyntaxCause PartialRecord
  | .list items => items.foldlM mergeOne r
  | value => mergeOne r value

/-- The record of all fields. -/
def document (r : PartialRecord) : Document := ofFields r.fields.reverse

end PartialRecord

end Document

end FileProfile
