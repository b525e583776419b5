import FileProfile.Text.Basic

/-!
UTF-8 in both directions.

`encode` writes a lone surrogate as U+FFFD. The reader is a machine over octets that yields code
points and reports each maximal malformed run once; the three decoders differ in what they do with
a report and with a character cut off by the end of the input.
-/

namespace FileProfile

namespace Utf8

/-- U+FFFD, written in place of what cannot be represented. -/
def replacement : Nat := 0xFFFD

/-- U+FEFF, which a strict reader drops at the start of its input. -/
def byteOrderMark : CodeUnit := 0xFEFF

/-- The octets of a code point. -/
def encodePoint (p : Nat) : Octets :=
  if p < 0x80 then [p.toUInt8]
  else if p < 0x800 then [(0xC0 + p / 0x40).toUInt8, (0x80 + p % 0x40).toUInt8]
  else if p < 0x10000 then
    [(0xE0 + p / 0x1000).toUInt8, (0x80 + p / 0x40 % 0x40).toUInt8, (0x80 + p % 0x40).toUInt8]
  else
    [(0xF0 + p / 0x40000).toUInt8, (0x80 + p / 0x1000 % 0x40).toUInt8,
      (0x80 + p / 0x40 % 0x40).toUInt8, (0x80 + p % 0x40).toUInt8]

/-- The octets of a text, a lone surrogate written as U+FFFD. -/
def encode (t : Text) : Octets :=
  t.codePoints.flatMap fun p => encodePoint (if isSurrogatePoint p then replacement else p)

/-- A character under way: octets owed, the range of the next one, and the bits read. -/
structure Pending where
  owed : Nat
  low : UInt8
  high : UInt8
  bits : Nat
deriving DecidableEq, Repr

/-- What the machine reports: a code point, or a malformed run. -/
inductive Item where
  | point (p : Nat)
  | broken
deriving DecidableEq, Repr

/-- The first octet of a character. The ranges exclude overlong forms and surrogates. -/
def start (b : UInt8) : List Item × Option Pending :=
  if b < 0x80 then ([.point b.toNat], none)
  else if 0xC2 ≤ b ∧ b ≤ 0xDF then ([], some ⟨1, 0x80, 0xBF, b.toNat - 0xC0⟩)
  else if 0xE0 ≤ b ∧ b ≤ 0xEF then
    ([], some ⟨2, if b = 0xE0 then 0xA0 else 0x80, if b = 0xED then 0x9F else 0xBF, b.toNat - 0xE0⟩)
  else if 0xF0 ≤ b ∧ b ≤ 0xF4 then
    ([], some ⟨3, if b = 0xF0 then 0x90 else 0x80, if b = 0xF4 then 0x8F else 0xBF, b.toNat - 0xF0⟩)
  else ([.broken], none)

/-- One octet. An octet out of range ends the run before it and is read afresh. -/
def step : Option Pending → UInt8 → List Item × Option Pending
  | none, b => start b
  | some s, b =>
    if s.low ≤ b ∧ b ≤ s.high then
      let bits := s.bits * 0x40 + (b.toNat - 0x80)
      if s.owed = 1 then ([.point bits], none) else ([], some ⟨s.owed - 1, 0x80, 0xBF, bits⟩)
    else (.broken :: (start b).1, (start b).2)

/-- All reports of an input, and the character it cuts off. -/
def scan : Option Pending → Octets → List Item × Option Pending
  | s, [] => ([], s)
  | s, b :: rest =>
    ((step s b).1 ++ (scan (step s b).2 rest).1, (scan (step s b).2 rest).2)

/-- The code points of reports without a malformed run. -/
def points? : List Item → Option (List Nat)
  | [] => some []
  | .point p :: rest => (points? rest).map (p :: ·)
  | .broken :: _ => none

/-- The text without one leading byte order mark. -/
def dropMark : Text → Text
  | [] => []
  | u :: rest => if u = byteOrderMark then rest else u :: rest

/-- Reads well-formed octets only, and drops a byte order mark. -/
def decode? (bytes : Octets) : Option Text :=
  match scan none bytes with
  | (items, none) => (points? items).map fun ps => dropMark (Text.ofCodePoints ps)
  | (_, some _) => none

/-- Reads the start of a well-formed input, without the character that its end cuts off. -/
def decodeOpening? (bytes : Octets) : Option Text :=
  (points? (scan none bytes).1).map fun ps => dropMark (Text.ofCodePoints ps)

/-- Reads any octets: each malformed run is one U+FFFD, and a byte order mark is kept. -/
def decodeLossy (bytes : Octets) : Text :=
  let (items, rest) := scan none bytes
  let ps := items.map fun
    | .point p => p
    | .broken => replacement
  Text.ofCodePoints (if rest.isSome then ps ++ [replacement] else ps)

example : encode "é😀" = [0xC3, 0xA9, 0xF0, 0x9F, 0x98, 0x80] := by decide
example : encode [0xD800, 0x41] = [0xEF, 0xBF, 0xBD, 0x41] := by decide
example : decode? [0xEF, 0xBB, 0xBF, 0x41] = some "A" := by decide
example : decode? [0xED, 0xA0, 0x80] = none := by decide
example : decodeOpening? [0x41, 0xE2, 0x82] = some "A" := by decide
example : decodeLossy [0xE2, 0x82, 0x41, 0xFF] = [0xFFFD, 0x41, 0xFFFD] := by decide

end Utf8

end FileProfile
