import FileProfile.Text.Basic

/-!
Blank units and the cuts they make: trimming, words between runs of blanks, and lines.

A line ends at a line feed or at a carriage return followed by one; a carriage return elsewhere is
part of its line.
-/

namespace FileProfile

namespace CodeUnit

/-- White space and line terminators; U+0085, U+180E and U+200B are not among them. -/
def isBlank (u : CodeUnit) : Bool :=
  (0x09 ≤ u && u ≤ 0x0D) || u = 0x20 || u = 0xA0 || u = 0x1680 || (0x2000 ≤ u && u ≤ 0x200A)
    || u = 0x2028 || u = 0x2029 || u = 0x202F || u = 0x205F || u = 0x3000 || u = 0xFEFF

/-- Units that end a line of text of any convention. -/
def isLineTerminator (u : CodeUnit) : Bool :=
  u = 0x0A || u = 0x0D || u = 0x2028 || u = 0x2029

end CodeUnit

namespace Text

def lineFeed : CodeUnit := 0x0A

def carriageReturn : CodeUnit := 0x0D

def trimStart (t : Text) : Text := t.dropWhile CodeUnit.isBlank

def trimEnd (t : Text) : Text := (t.reverse.dropWhile CodeUnit.isBlank).reverse

def trim (t : Text) : Text := trimEnd (trimStart t)

/-- The pieces between blanks, empty ones included. -/
def blankPieces : Text → List Text
  | [] => [[]]
  | u :: rest => if u.isBlank then [] :: blankPieces rest else push u (blankPieces rest)

/-- The maximal runs without blanks. -/
def words (t : Text) : List Text := (blankPieces t).filter fun piece => piece ≠ []

/-- The lines of a text without their terminators; a final terminator leaves an empty last line. -/
def lines : Text → List Text
  | [] => [[]]
  | u :: rest =>
    if u = lineFeed then [] :: lines rest
    else if u = carriageReturn ∧ rest.head? = some lineFeed then lines rest
    else push u (lines rest)

/-- Whether some line of `t` ends in a carriage return and a line feed. -/
def hasCrLf : Text → Bool
  | [] => false
  | u :: rest => (u = carriageReturn && rest.head? = some lineFeed) || hasCrLf rest

@[simp] theorem lines_ne_nil (t : Text) : lines t ≠ [] := by
  induction t with
  | nil => simp [lines]
  | cons u rest ih =>
    unfold lines
    split
    · simp
    · split
      · exact ih
      · cases h : lines rest <;> simp [push]

example : lines "a\r\nb\n" = (["a", "b", ""] : List Text) := by decide
example : lines "a\rb\r\r\n" = (["a\rb\r", ""] : List Text) := by decide
example : words " a  b " = (["a", "b"] : List Text) := by decide

end Text

end FileProfile
