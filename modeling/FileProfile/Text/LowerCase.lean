import FileProfile.Text.LowerCase.Table
import FileProfile.Text.Basic

/-!
The lower-case form of a text.

Each code point has an image of its own, except the capital sigma: it becomes a final sigma after a
cased letter unless another cased letter follows, case-ignorable characters not counting.
-/

namespace FileProfile

namespace LowerCase

def capitalSigma : Nat := 0x3A3

def smallSigma : Nat := 0x3C3

def finalSigma : Nat := 0x3C2

/-- The capital I with a dot above, the one letter whose image has two code points. -/
def dottedCapitalI : Nat := 0x130

def isCased (p : Nat) : Bool := inRanges casedRanges p

def isIgnorable (p : Nat) : Bool := inRanges ignorableRanges p

/-- The image of a code point regardless of its neighbours. -/
def image (p : Nat) : List Nat :=
  if p < 0x80 then [if 0x41 ≤ p ∧ p ≤ 0x5A then p + 0x20 else p]
  else if p = dottedCapitalI then [0x69, 0x307]
  else
    match runs.find? (·.covers p) with
    | some r => [(p + r.shift).toNat]
    | none => [p]

/-- Whether the nearest code point that counts is a cased letter. -/
def meetsCased (ps : List Nat) : Bool := (ps.find? fun p => !isIgnorable p).any isCased

/-- The images of code points, `before` being those to the left, nearest first. -/
def imagesFrom (before : List Nat) : List Nat → List Nat
  | [] => []
  | p :: rest =>
    (if p = capitalSigma then
      [if meetsCased before && !meetsCased rest then finalSigma else smallSigma]
    else image p) ++ imagesFrom (p :: before) rest

end LowerCase

namespace Text

/-- The lower-case form of a text; lone surrogates stay. -/
def lowerCase (t : Text) : Text := ofCodePoints (LowerCase.imagesFrom [] t.codePoints)

end Text

end FileProfile
