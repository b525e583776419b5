import FileProfile.Number.Numeral

/-!
Faults of syntax in configuration texts, and the messages about them.

A message names the cause and the place, and shows the line with its neighbours.
-/

namespace FileProfile

/-- What is wrong with a configuration text. -/
inductive SyntaxCause where
  | zeroUnit
  | unprintable
  | unquotable
  | openSingleQuotes
  | openDoubleQuotes
  | cutSingleQuotes
  | cutDoubleQuotes
  | hexDigit
  | unknownEscape
  | openBrackets
  | missingComma
  | missingNode
  | itemIndentation
  | fieldIndentation
  | tabIndentation
  | missingKey
  | missingBlank
  | missingColon
  | keyOverLines
  | repeatedKey
  | nestedListInKey
  | unmergeable
  | namelessAnchor
  | repeatedAnchor
  | namelessAlias
  | unknownAlias (name : Text)
  | anchoredAlias
  | repeatedChomping
  | zeroWidth
  | repeatedWidth
  | missingBreak
  | trailing
  | severalDocuments
deriving DecidableEq, Repr

/-- A cause and where it was found. -/
structure SyntaxFault where
  cause : SyntaxCause
  /-- The line that the message names, counted from zero. -/
  line : Nat := 0
  /-- The column that the message names, counted from zero at the start of that line. -/
  column : Int := 0
  /-- How many units of the text are left at the place. -/
  left : Nat := 0
deriving DecidableEq, Repr

namespace SyntaxCause

def message : SyntaxCause → Text
  | .zeroUnit => "null byte is not allowed in input"
  | .unprintable => "the stream contains non-printable characters"
  | .unquotable => "expected valid JSON character"
  | .openSingleQuotes => "unexpected end of the stream within a single quoted scalar"
  | .openDoubleQuotes => "unexpected end of the stream within a double quoted scalar"
  | .cutSingleQuotes => "unexpected end of the document within a single quoted scalar"
  | .cutDoubleQuotes => "unexpected end of the document within a double quoted scalar"
  | .hexDigit => "expected hexadecimal character"
  | .unknownEscape => "unknown escape sequence"
  | .openBrackets => "unexpected end of the stream within a flow collection"
  | .missingComma => "missed comma between flow collection entries"
  | .missingNode => "expected the node content, but found ','"
  | .itemIndentation => "bad indentation of a sequence entry"
  | .fieldIndentation => "bad indentation of a mapping entry"
  | .tabIndentation => "tab characters must not be used in indentation"
  | .missingKey =>
    "incomplete explicit mapping pair; a key node is missed; "
      ++ "or followed by a non-tabulated empty line"
  | .missingBlank =>
    "a whitespace character is expected after the key-value separator within a block mapping"
  | .missingColon => "can not read an implicit mapping pair; a colon is missed"
  | .keyOverLines =>
    "can not read a block mapping entry; a multiline key may not be an implicit key"
  | .repeatedKey => "duplicated mapping key"
  | .nestedListInKey => "nested arrays are not supported inside keys"
  | .unmergeable => "cannot merge mappings; the provided source object is unacceptable"
  | .namelessAnchor => "name of an anchor node must contain at least one character"
  | .repeatedAnchor => "duplication of an anchor property"
  | .namelessAlias => "name of an alias node must contain at least one character"
  | .unknownAlias name => "unidentified alias \"" ++ name ++ "\""
  | .anchoredAlias => "alias node should not have any properties"
  | .repeatedChomping => "repeat of a chomping mode identifier"
  | .zeroWidth =>
    "bad explicit indentation width of a block scalar; it cannot be less than one"
  | .repeatedWidth => "repeat of an indentation width identifier"
  | .missingBreak => "a line break is expected"
  | .trailing => "end of the stream or a document separator is expected"
  | .severalDocuments => "expected a single document in the stream, but found more"

/-- Whether the cause lies at one place of the text. -/
def hasPlace (cause : SyntaxCause) : Bool := cause ≠ .severalDocuments

end SyntaxCause

/-! ## Excerpts -/

namespace Excerpt

/-- A line of a text: how many units stand before it, and its own units without its end. -/
structure Line where
  start : Nat
  content : Text
deriving DecidableEq, Repr

/-- The lines of a text, which end at line feeds, carriage returns, both together, and zeros. The
rest of the text begins at `place`, and `content` are the units of the line so far, the latest
first. -/
def linesFrom : Text → (place start : Nat) → (content : Text) → List Line
  | [], _, start, content => [⟨start, content.reverse⟩]
  | u :: rest, place, start, content =>
    if u = 0x0D ∧ rest.head? = some 0x0A then linesFrom rest (place + 1) start content
    else if u = 0x0A ∨ u = 0x0D ∨ u = 0 then
      ⟨start, content.reverse⟩ :: linesFrom rest (place + 1) (place + 1) []
    else linesFrom rest (place + 1) start (u :: content)

/-- The index of the line that a place lies in or at the end of. -/
def lineAt (lines : List Line) (place : Nat) : Nat :=
  lines.dropLast.findIdx fun l => place ≤ l.start + l.content.length

/-- How many columns the lines of an excerpt take behind a line number of `digits` digits. -/
def room (digits : Nat) : Nat := 79 - (digits + 4)

/-- The part of a line around a column, marks standing for what is left out, and the column in
that part. -/
def around (room column : Nat) (line : Text) : Text × Nat :=
  let half := room / 2 - 1
  let start := if half < column then column - half + 5 else 0
  let stop := if column + half < line.length then column + half - 4 else line.length
  let shown := ((line.take stop).drop start).map fun u => if u = 0x09 then 0x2192 else u
  let opening : Text := if half < column then " ... " else []
  let closing : Text := if column + half < line.length then " ..." else []
  (opening ++ shown ++ closing, column - start + opening.length)

/-- A numbered line of an excerpt. -/
def numbered (digits column : Nat) (number : Int) (line : Text) : Text :=
  (0x20 : CodeUnit) :: Text.padStart digits 0x20 (Numeral.decimalInt number) ++ " | "
    ++ (around (room digits) column line).1

/-- The line of a place with up to three lines above, a mark under the column, and up to two lines
below, numbered so that the line of the place has the given number. The last line of a text, behind
its last break, is never shown below. -/
def text (source : Text) (place number : Nat) : Text :=
  let all := linesFrom source 0 0 []
  let breaks := all.length - 1
  let index := lineAt all place
  let here := all[index]?.getD ⟨0, []⟩
  let column := place - here.start
  let digits := (Numeral.decimal (min (number + 1) breaks)).length
  let shown (first : Nat) (ls : List Line) : List Text :=
    ls.zipIdx.map fun (l, i) =>
      numbered digits column (number + (first + i : Nat) - index : Int) l.content
  let above := shown (index - 3) ((all.take index).drop (index - 3))
  let mark : Text :=
    List.replicate (digits + 4 + (around (room digits) column here.content).2) 0x2D ++ [0x5E]
  let below := shown (index + 1) (((all.take breaks).drop (index + 1)).take 2)
  Text.join "\n" (above ++ [numbered digits column number here.content, mark] ++ below)

end Excerpt

namespace SyntaxFault

/-- The message about a fault in a text. Where the fault is a zero, the excerpt lacks the last unit
of the text. -/
def message (source : Text) (f : SyntaxFault) : Text :=
  if f.cause.hasPlace then
    let shown := if f.cause = .zeroUnit then source.dropLast else source
    f.cause.message ++ " (" ++ Numeral.decimal (f.line + 1) ++ ":"
      ++ Numeral.decimalInt (f.column + 1) ++ ")\n\n"
      ++ Excerpt.text shown (source.length - f.left) (f.line + 1)
  else f.cause.message

end SyntaxFault

end FileProfile
