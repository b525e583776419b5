import FileProfile.Document.Basic
import FileProfile.Document.SyntaxFault
import FileProfile.Text.Blank

/-!
Reading configuration texts from left to right.

A cursor is a place in a text together with what the rules of indentation look at: the line, the
column, the spaces at the start of the line and the first tab among the blanks passed since.
`Reading` is a computation that moves a cursor or fails at a place.
-/

namespace FileProfile

namespace Document

def isSpace (u : CodeUnit) : Bool := u = 0x20 || u = 0x09

def isBreak (u : CodeUnit) : Bool := u = Text.lineFeed || u = Text.carriageReturn

def isGap (u : CodeUnit) : Bool := isSpace u || isBreak u

/-- A place in a text and what is still to be read from there. -/
structure Cursor where
  rest : Text
  line : Nat := 0
  column : Nat := 0
  /-- The spaces at the start of the line. -/
  indentation : Nat := 0
  /-- The column of the first tab among the blanks that were passed in the line. -/
  tab : Option Nat := none
  /-- Values by the anchors in front of them, the latest first. -/
  anchors : List (Text × Document) := []
deriving Repr

namespace Cursor

/-- The place behind one unit of the line. -/
def pass (c : Cursor) (rest : Text) : Cursor := { c with rest, column := c.column + 1 }

/-- The place at the start of the next line. -/
def startLine (c : Cursor) (rest : Text) : Cursor :=
  { c with rest, line := c.line + 1, column := 0, indentation := 0, tab := none }

/-- The place behind a blank. -/
def passBlank (c : Cursor) (u : CodeUnit) (indenting : Bool) (rest : Text) : Cursor :=
  if u = 0x20 then
    { c.pass rest with indentation := if indenting then c.indentation + 1 else c.indentation }
  else { c.pass rest with tab := c.tab <|> some c.column }

/-- Goes over blanks and line breaks, and over comments where they may stand, and counts the
breaks. A carriage return and a line feed are one break. -/
def skipFrom (comments : Bool) : Text → (inComment indenting : Bool) → Nat → Cursor → Nat × Cursor
  | [], _, _, breaks, c => (breaks, { c with rest := [] })
  | u :: rest, inComment, indenting, breaks, c =>
    if u = Text.carriageReturn ∧ rest.head? = some Text.lineFeed then
      skipFrom comments rest inComment indenting breaks (c.pass rest)
    else if isBreak u then skipFrom comments rest false true (breaks + 1) (c.startLine rest)
    else if inComment then skipFrom comments rest true false breaks (c.pass rest)
    else if isSpace u then
      skipFrom comments rest false (indenting && u = 0x20) breaks (c.passBlank u indenting rest)
    else if comments ∧ u = 0x23 then skipFrom comments rest true false breaks (c.pass rest)
    else (breaks, { c with rest := u :: rest })

/-- The place behind blanks, line breaks and comments, and how many breaks there were. -/
def skip (comments : Bool) (c : Cursor) : Nat × Cursor := skipFrom comments c.rest false false 0 c

/-- Whether the line begins with three dashes or dots before a gap, which part documents. -/
def atSeparator (c : Cursor) : Bool :=
  c.column = 0 && (c.rest.take 3 = "---" || c.rest.take 3 = "...")
    && (c.rest.drop 3).head?.all isGap

/-- Whether a mark stands before a gap. -/
def atMark (c : Cursor) (mark : CodeUnit) : Bool :=
  c.rest.head? = some mark && (c.rest.drop 1).head?.any isGap

end Cursor

/-- A computation that reads on from a place. -/
abbrev Reading (α : Type) := StateT Cursor (Except SyntaxFault) α

namespace Reading

/-- Fails at the place that was reached. -/
def fail {α : Type} (cause : SyntaxCause) : Reading α := fun c =>
  .error { cause, line := c.line, column := c.column, left := c.rest.length }

/-- Fails at an earlier place. A place in the first line is named as seen from the line that was
reached. -/
def failAt {α : Type} (place : Cursor) (cause : SyntaxCause) : Reading α := fun c =>
  let left := place.rest.length
  if place.line = 0 then
    .error { cause, line := c.line, column := c.column - (left - c.rest.length : Int), left }
  else .error { cause, line := place.line, column := place.column, left }

/-- The next unit. -/
def next? : Reading (Option CodeUnit) := fun c => .ok (c.rest.head?, c)

/-- Passes one unit of the line. -/
def pass : Reading Unit := fun c => .ok ((), c.pass (c.rest.drop 1))

/-- Skips blanks, line breaks and comments. -/
def skip : Reading Nat := fun c => .ok (c.skip true)

/-- Skips the blanks of the line. -/
def skipBlanks : Reading Unit := fun c =>
  let blanks := c.rest.takeWhile isSpace
  .ok ((), { c with rest := c.rest.drop blanks.length, column := c.column + blanks.length })

/-- Fails where a tab stands in the indentation of the line. -/
def refuseTab : Reading Unit := fun c =>
  match c.tab with
  | some column =>
    .error {
      cause := .tabIndentation
      line := c.line
      column
      left := c.rest.length + c.column - column }
  | none => .ok ((), c)

end Reading

end Document

end FileProfile
