/-!
Text as a sequence of 16-bit units.

A file name or a configuration value need not be well-formed Unicode, so text is a list of UTF-16
code units in which surrogates may stand alone. `Text.codePoints` reads surrogate pairs as one
code point and `Text.ofCodePoints` writes them back.
-/

namespace FileProfile

/-- A UTF-16 code unit. -/
abbrev CodeUnit := UInt16

/-- A sequence of code units; surrogates need not be paired. -/
abbrev Text := List CodeUnit

/-- A sequence of bytes. -/
abbrev Octets := List UInt8

namespace CodeUnit

/-- The unit of a character of the basic plane. -/
def ofChar (c : Char) : CodeUnit := c.toNat.toUInt16

instance : Coe Char CodeUnit := ⟨ofChar⟩

def isHighSurrogate (u : CodeUnit) : Bool := 0xD800 ≤ u && u ≤ 0xDBFF

def isLowSurrogate (u : CodeUnit) : Bool := 0xDC00 ≤ u && u ≤ 0xDFFF

/-- ASCII letters only. -/
def isLetter (u : CodeUnit) : Bool := (0x41 ≤ u && u ≤ 0x5A) || (0x61 ≤ u && u ≤ 0x7A)

/-- ASCII digits only. -/
def isDigit (u : CodeUnit) : Bool := 0x30 ≤ u && u ≤ 0x39

def isOctalDigit (u : CodeUnit) : Bool := 0x30 ≤ u && u ≤ 0x37

/-- The value of a hexadecimal digit in either case. -/
def hexValue? (u : CodeUnit) : Option Nat :=
  if u.isDigit then some (u.toNat - 0x30)
  else if 0x61 ≤ u && u ≤ 0x66 then some (u.toNat - 0x57)
  else if 0x41 ≤ u && u ≤ 0x46 then some (u.toNat - 0x37)
  else none

def isHexDigit (u : CodeUnit) : Bool := (hexValue? u).isSome

end CodeUnit

/-- Whether a code point lies in one of some ranges, whose ends count. -/
def inRanges (ranges : List (Nat × Nat)) (p : Nat) : Bool :=
  ranges.any fun r => r.1 ≤ p && p ≤ r.2

/-- A code point in the range of the surrogates, which encodes no character. -/
def isSurrogatePoint (p : Nat) : Bool := 0xD800 ≤ p && p ≤ 0xDFFF

namespace Text

/-- One unit below U+10000, a surrogate pair above. -/
def ofCodePoint (p : Nat) : Text :=
  if p < 0x10000 then [p.toUInt16]
  else [(0xD800 + (p - 0x10000) / 0x400).toUInt16, (0xDC00 + (p - 0x10000) % 0x400).toUInt16]

def ofCodePoints (ps : List Nat) : Text := ps.flatMap ofCodePoint

/-- The code units of a string. -/
def ofString (s : String) : Text := s.toList.flatMap fun c => ofCodePoint c.toNat

instance : Coe String Text := ⟨ofString⟩

/-- Comparing texts unit by unit decides whether they are equal. -/
instance lawfulBEq : LawfulBEq Text := List.instLawfulBEq

/-- The supplementary code point of a surrogate pair. -/
def pairPoint (high low : CodeUnit) : Nat :=
  0x10000 + (high.toNat - 0xD800) * 0x400 + (low.toNat - 0xDC00)

/-- The code points of a text, a lone surrogate standing for itself. -/
def codePoints : Text → List Nat
  | [] => []
  | [u] => [u.toNat]
  | u :: v :: rest =>
    if u.isHighSurrogate && v.isLowSurrogate then pairPoint u v :: codePoints rest
    else u.toNat :: codePoints (v :: rest)

/-- Whether every surrogate is half of a pair. -/
def wellFormed (t : Text) : Bool := t.codePoints.all fun p => !isSurrogatePoint p

/-- The string of a well-formed text. -/
def toString? (t : Text) : Option String :=
  if t.wellFormed then some (String.ofList (t.codePoints.map Char.ofNat)) else none

/-- Puts a unit in front of the first piece. -/
def push (u : CodeUnit) : List Text → List Text
  | [] => [[u]]
  | piece :: pieces => (u :: piece) :: pieces

/-- The pieces between occurrences of `sep`: one more than there are occurrences. -/
def splitAt (sep : CodeUnit) : Text → List Text
  | [] => [[]]
  | u :: rest => if u = sep then [] :: splitAt sep rest else push u (splitAt sep rest)

/-- Joins `pieces` with `sep` between neighbours. -/
def join (sep : Text) (pieces : List Text) : Text := List.intercalate sep pieces

/-- Replaces every occurrence of one unit by a text. -/
def replaceUnit (u : CodeUnit) (image : Text) (t : Text) : Text :=
  t.flatMap fun v => if v = u then image else [v]

/-- Lengthens `t` to `width` units by `fill` in front. -/
def padStart (width : Nat) (fill : CodeUnit) (t : Text) : Text :=
  List.replicate (width - t.length) fill ++ t

/-- Lengthens `t` to `width` units by `fill` behind. -/
def padEnd (width : Nat) (fill : CodeUnit) (t : Text) : Text :=
  t ++ List.replicate (width - t.length) fill

/-- Order by code units, the first difference deciding. -/
def before : Text → Text → Bool
  | [], _ => true
  | _ :: _, [] => false
  | u :: us, v :: vs => u < v || (u = v && before us vs)

/-- Replaces each unit by its ASCII lower-case form. -/
def lowerAscii (t : Text) : Text :=
  t.map fun u => if 0x41 ≤ u && u ≤ 0x5A then u + 0x20 else u

@[simp] theorem splitAt_ne_nil (sep : CodeUnit) (t : Text) : splitAt sep t ≠ [] := by
  induction t with
  | nil => simp [splitAt]
  | cons u rest ih =>
    unfold splitAt
    split
    · simp
    · cases h : splitAt sep rest <;> simp [push]

end Text

end FileProfile
