import FileProfile.Text.ControlSequence
import FileProfile.Text.Emoji

/-!
The columns that a text takes on a terminal.

Control sequences, control characters and combining marks take none, pictures and wide characters of
East Asian scripts take two, and every other character takes one.
-/

namespace FileProfile

namespace Text

/-- Ranges of code points that take two columns, in ascending order. -/
def wideRanges : List (Nat × Nat) :=
  [(0x1100, 0x115F), (0x11A3, 0x11A7), (0x11FA, 0x11FF), (0x2329, 0x232A), (0x2E80, 0x2E99),
   (0x2E9B, 0x2EF3), (0x2F00, 0x2FD5), (0x2FF0, 0x2FFB), (0x3000, 0x303E), (0x3041, 0x3096),
   (0x3099, 0x30FF), (0x3105, 0x312D), (0x3131, 0x318E), (0x3190, 0x31BA), (0x31C0, 0x31E3),
   (0x31F0, 0x321E), (0x3220, 0x3247), (0x3250, 0x32FE), (0x3300, 0x4DBF), (0x4E00, 0xA48C),
   (0xA490, 0xA4C6), (0xA960, 0xA97C), (0xAC00, 0xD7A3), (0xD7B0, 0xD7C6), (0xD7CB, 0xD7FB),
   (0xF900, 0xFAFF), (0xFE10, 0xFE19), (0xFE30, 0xFE52), (0xFE54, 0xFE66), (0xFE68, 0xFE6B),
   (0xFF01, 0xFF60), (0xFFE0, 0xFFE6), (0x1B000, 0x1B001), (0x1F200, 0x1F202),
   (0x1F210, 0x1F23A), (0x1F240, 0x1F248), (0x1F250, 0x1F251), (0x20000, 0x2F73F),
   (0x2B740, 0x2FFFD), (0x30000, 0x3FFFD)]

/-- The columns of a code point. -/
def pointWidth (p : Nat) : Nat :=
  if p ≤ 0x1F ∨ (0x7F ≤ p ∧ p ≤ 0x9F) ∨ (0x300 ≤ p ∧ p ≤ 0x36F) then 0
  else if inRanges wideRanges p then 2
  else 1

/-- The columns of code points, the first `passed` of them being part of a picture. -/
def columnsFrom : (passed : Nat) → List Nat → Nat
  | _, [] => 0
  | passed + 1, _ :: rest => columnsFrom passed rest
  | 0, p :: rest =>
    match Emoji.length? (p :: rest) with
    | some n => 2 + columnsFrom (n - 1) rest
    | none => pointWidth p + columnsFrom 0 rest

/-- The columns of a text. -/
def displayWidth (t : Text) : Nat := columnsFrom 0 (ControlSequence.remove t).codePoints

example : displayWidth "aé" = 2 ∧ displayWidth "日本" = 4 := by decide

end Text

end FileProfile
