import FileProfile.ContentType.Ancestry
import FileProfile.Text.Blank
import FileProfile.Text.Utf8

/-!
Content types told by the first octets of a file.

Object files are told by their header, other files by the signatures of the rules, and text by its
first line: an interpreter line, or the header of a desktop entry.
-/

namespace FileProfile

namespace ContentType

/-- The octets at the start of a file that are looked at. -/
def sniffLength : Nat := 512

def elfMark : Octets := [0x7F, 0x45, 0x4C, 0x46]

/-- Whether `signature` stands at an offset. -/
def hasAt (offset : Nat) (signature bytes : Octets) : Bool :=
  signature.isPrefixOf (bytes.drop offset) && offset + signature.length ≤ bytes.length

/-- The type of an object file, by the two octets at offset 16 in the order that octet 5 gives. -/
def ofElf (bytes : Octets) : Text :=
  let low := (bytes.getD 16 0).toNat
  let high := (bytes.getD 17 0).toNat
  let fileType :=
    if bytes.length < 18 then 0
    else if bytes[5]? = some 2 then low * 256 + high
    else low + high * 256
  if fileType = 1 then "application/x-object"
  else if fileType = 4 then "application/x-core"
  else "application/x-executable"

/-- The last of the pieces of a word between slashes. -/
def lastPiece (word : Text) : Text := (Text.splitAt '/' word).getLastD []

/-- Whether a word is an option or sets a variable. -/
def isEnvOption (word : Text) : Bool := word.head? = some ('-' : CodeUnit) || word.contains '='

/-- The interpreter that a `#!` line names, its directory and version taken off. A line that runs
`env` names it behind the options. -/
def interpreter? (line : Text) : Option Text := do
  let words := Text.words (Text.trim (line.drop 2))
  let first ← words.head?
  let program ←
    if lastPiece first = "env" then words.tail.find? fun word => !isEnvOption word else some first
  let letters := (lastPiece program).takeWhile CodeUnit.isLetter
  guard (letters ≠ [])
  return Text.lowerAscii letters

/-- The first line that is neither blank nor a comment. -/
def firstContentLine? (text : Text) : Option Text :=
  ((Text.lines text).map Text.trim).find? fun line => line ≠ [] ∧ line.head? ≠ some ('#' : CodeUnit)

/-- Whether a text begins like a desktop entry. -/
def beginsDesktopEntry (text : Text) : Bool :=
  match firstContentLine? text with
  | some line => line = "[Desktop Entry]" || line = "[KDE Desktop Entry]"
  | none => false

/-- The type of a text. -/
def ofText (rules : Rules) (text : Text) : TypeName :=
  if ("#!" : Text).isPrefixOf text then
    match interpreter? ((Text.lines text).headD []) with
    | some program => rules.interpreters.nameAt program plainText
    | none => plainText
  else if beginsDesktopEntry text then desktopEntry
  else plainText

/-- The text that octets are the start of, where they hold no zero and no malformed character. -/
def openingText? (bytes : Octets) : Option Text :=
  if bytes.contains 0 then none else Utf8.decodeOpening? bytes

/-- The type told by the start of a file; no octets mean an empty file. -/
def sniff (rules : Rules) (bytes : Octets) : TypeName :=
  if bytes = [] then zeroSize
  else if hasAt 0 elfMark bytes then ofElf bytes
  else
    match rules.signatures.find? fun s => hasAt s.offset s.octets bytes with
    | some s => s.type
    | none =>
      match openingText? bytes with
      | some text => ofText rules text
      | none => octetStream

end ContentType

end FileProfile
