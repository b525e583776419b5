import FileProfile.Text.Blank
import FileProfile.Text.DisplayWidth

/-!
Lines broken into rows of a number of columns.

A line is broken between its words, which spaces part. A word that is wider than a row is broken
wherever a row is full. `Text.wrap` gives the rows of a line, with or without the blanks at their
ends.
-/

namespace FileProfile

namespace Text

/-- The rows of a line so far: those above, the latest first, and the one that takes what comes. -/
structure Rows where
  above : List Text := []
  row : Text := []

namespace Rows

/-- A new row below. -/
def start (r : Rows) : Rows := { above := r.row :: r.above, row := [] }

def append (r : Rows) (t : Text) : Rows := { r with row := r.row ++ t }

/-- The last row put at the end of the one above it. -/
def rejoin (r : Rows) : Rows :=
  match r.above with
  | [] => r
  | last :: above => { above, row := last ++ r.row }

def toList (r : Rows) : List Text := (r.row :: r.above).reverse

/-- Adds code points one by one, the last row taking `used` columns. A row that holds nothing but
what takes no columns is no row of its own. -/
def fill (columns : Nat) : (used : Nat) → List Nat → Rows → Rows
  | used, [], r => if used = 0 ∧ r.row ≠ [] then r.rejoin else r
  | used, p :: rest, r =>
    let shown := ofCodePoint p
    let width := displayWidth shown
    let fits := used + width ≤ columns
    let reached := if fits then used + width else width
    let r := (if fits then r else r.start).append shown
    if reached = columns ∧ rest ≠ [] then fill columns 0 rest r.start
    else fill columns reached rest r

/-- Parts the last row from the word that comes. Rows that keep their blanks are parted by a space
even where they are empty, and a full one is followed by a new one. -/
def part (columns : Nat) (trims : Bool) (r : Rows) : Rows :=
  let r := if !trims ∧ columns ≤ displayWidth r.row then r.start else r
  if !trims ∨ 0 < displayWidth r.row then r.append " " else r

/-- Adds a word, on a new row where the last one has no room for it. A word that is wider than a row
begins on a new row if it then takes fewer rows. -/
def addWord (columns : Nat) (r : Rows) (word : Text) : Rows :=
  let used := displayWidth r.row
  let width := displayWidth word
  if columns < width then
    let breaksHere := 1 + (width + used - columns - 1) / columns
    let breaksBelow := (width - 1) / columns
    let r := if breaksBelow < breaksHere then r.start else r
    fill columns (displayWidth r.row) word.codePoints r
  else if columns < used + width ∧ 0 < used ∧ 0 < width then r.start.append word
  else r.append word

end Rows

/-- A row without the spaces at its end, what takes no columns being passed over. -/
def trimRow (row : Text) : Text :=
  let words := splitAt 0x20 row
  let kept := (words.reverse.dropWhile fun word => displayWidth word = 0).reverse
  join " " kept ++ (words.drop kept.length).flatten

/-- Words on rows. Rows that trim their blanks lose those in front when a word comes. -/
def Rows.ofWords (columns : Nat) (trims : Bool) : List Text → Rows
  | [] => {}
  | first :: others =>
    others.foldl (fun r word =>
        let r := if trims then { r with row := trimStart r.row } else r
        (r.part columns trims).addWord columns word)
      (Rows.addWord columns {} first)

/-- The rows of a line; `trims` takes the blanks from their ends. -/
def wrap (columns : Nat) (trims : Bool) (line : Text) : List Text :=
  if trims ∧ trim line = [] then [[]]
  else
    let rows := (Rows.ofWords columns trims (splitAt 0x20 line)).toList
    if trims then rows.map trimRow else rows

example : wrap 5 true "ab cd efghijk" = (["ab cd", "efghi", "jk"] : List Text) := by
  decide +kernel

end Text

end FileProfile
