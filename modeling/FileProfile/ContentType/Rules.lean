import FileProfile.Table
import FileProfile.Document.Checked

/-!
The rules of a content-type database: what a suffix, an interpreter or a signature tells about the
type of a file, which names are aliases, and which types are special cases of others.
-/

namespace FileProfile

/-- Octets at an offset that tell the type of a file. -/
structure Signature where
  offset : Nat
  octets : Octets
  type : Text
deriving DecidableEq, Repr

/-- The rules of a content-type database. -/
structure Rules where
  suffixes : Table Text := []
  aliases : Table Text := []
  subclasses : Table (List Text) := []
  interpreters : Table Text := []
  signatures : List Signature := []
deriving DecidableEq, Repr

namespace Rules

/-- The octets that pairs of lower-case hexadecimal digits spell; at least one pair. -/
def octetsOfHex? : Text → Option Octets
  | [] => none
  | [_] => none
  | u :: v :: rest => do
    let isLower (w : CodeUnit) := w.isDigit || (0x61 ≤ w && w ≤ 0x66)
    guard (isLower u ∧ isLower v)
    let octet := ((← u.hexValue?) * 16 + (← v.hexValue?)).toUInt8
    if rest = [] then return [octet]
    else return octet :: (← octetsOfHex? rest)

def asOctets (path : List Text) (d : Document) : Checked Octets :=
  match Document.asString path d with
  | .ok t =>
    match octetsOfHex? t with
    | some octets => .ok octets
    | none => Checked.fail path "Invalid"
  | .error found => .error found

def readSignature (path : List Text) (d : Document) : Checked Signature :=
  match Document.asRecord path d with
  | .ok fields =>
    (Checked.both (Document.requiredField Document.asCount path fields "offset")
      (Checked.both (Document.requiredField asOctets path fields "bytes")
        (Document.requiredField Document.asWord path fields "type"))).map
      fun (offset, octets, type) => { offset, octets, type }
  | .error found => .error found

/-- Reads rules from a document. Missing parts are empty and unknown parts do not count. -/
def read (d : Document) : Checked Rules :=
  match Document.asRecord [] d with
  | .ok fields =>
    let strings (key : Text) :=
      Document.optionalField (Document.asTable Document.anyKey Document.asString) [] fields key
    let parents := Document.asTable Document.anyKey (Document.asList Document.asString)
    (Checked.both (strings "suffixes")
      (Checked.both (strings "aliases")
        (Checked.both (Document.optionalField parents [] fields "subclasses")
          (Checked.both (strings "interpreters")
            (Document.optionalField (Document.asList readSignature) [] fields "magic"))))).map
      fun (suffixes, aliases, subclasses, interpreters, signatures) => {
        suffixes := suffixes.getD []
        aliases := aliases.getD []
        subclasses := subclasses.getD []
        interpreters := interpreters.getD []
        signatures := signatures.getD [] }
  | .error found => .error found

end Rules

end FileProfile
