import FileProfile.Text.Emoji.Table
import FileProfile.Text.Basic

/-!
Pictographs: which sequences of code points are shown as one picture.

A picture is a code point that is one by itself, one that a selector or a skin tone makes one, a
pair of letters for a flag, a key with a cap, or several pictures that joiners tie together.
`Emoji.length?` gives the length of the picture at the start of a text.
-/

namespace FileProfile

namespace Emoji

/-- Asks for the picture form of the code point before it. -/
def selector : Nat := 0xFE0F

/-- Ties two pictures together. -/
def joiner : Nat := 0x200D

def isTone (p : Nat) : Bool := 0x1F3FB ≤ p && p ≤ 0x1F3FF

/-! ## Shapes -/

/-- A shape of sequences: what may remain of a text behind a sequence of the shape. -/
abbrev Shape := List Nat → List (List Nat)

namespace Shape

/-- One code point that passes a test. -/
def point (test : Nat → Bool) : Shape
  | [] => []
  | p :: rest => if test p then [rest] else []

/-- One of some code points. -/
def oneOf (ps : List Nat) : Shape := point ps.contains

/-- Given code points in their order. -/
def exactly (ps : List Nat) : Shape := fun t => if ps.isPrefixOf t then [t.drop ps.length] else []

/-- One shape behind another. -/
def followedBy (a b : Shape) : Shape := fun t => (a t).flatMap b

/-- Any of some shapes. -/
def anyOf (shapes : List Shape) : Shape := fun t => shapes.flatMap fun shape => shape t

/-- A shape or nothing. -/
def optional (a : Shape) : Shape := fun t => t :: a t

/-- A shape behind a joiner. -/
def joined (a : Shape) : Shape := followedBy (exactly [joiner]) a

/-- Shapes one behind the other. -/
def chain : List Shape → Shape
  | [] => fun t => [t]
  | a :: rest => followedBy a (chain rest)

/-- The length of the longest sequence of a shape at the start of a text. -/
def longest? (a : Shape) (t : List Nat) : Option Nat :=
  ((a t).map fun rest => t.length - rest.length).max?

end Shape

open Shape

/-! ## People -/

def person : Nat := 0x1F9D1

def man : Nat := 0x1F468

def woman : Nat := 0x1F469

def tone : Shape := point isTone

/-- A person with what they hold, wear or work with. -/
def worker : Shape :=
  chain [oneOf [person, man, woman], optional tone,
    joined (anyOf [oneOf attributes, chain [oneOf selectedAttributes, exactly [selector]]])]

/-- A person with the sign of a gender. -/
def genderedPerson : Shape :=
  chain [anyOf [chain [oneOf gendered, optional tone],
      chain [oneOf selectedGendered, anyOf [tone, exactly [selector]]], oneOf tonelessGendered],
    joined (chain [oneOf [0x2640, 0x2642], exactly [selector]])]

/-- Parents and one or two children. -/
def family : Shape :=
  chain [anyOf [exactly [man], exactly [woman], exactly [man, joiner, woman],
      exactly [man, joiner, man], exactly [woman, joiner, woman]],
    joined (anyOf [oneOf [0x1F466, 0x1F467], exactly [0x1F467, joiner, 0x1F466],
      exactly [0x1F466, joiner, 0x1F466], exactly [0x1F467, joiner, 0x1F467]])]

/-- A heart, and a kiss behind it or none. -/
def love : Shape :=
  joined (chain [exactly [0x2764, selector], optional (joined (exactly [0x1F48B]))])

/-- Hands that hold each other. -/
def hands : Shape := joined (exactly [0x1F91D])

/-- Two people with skin tones, which must differ where that is asked for. -/
def tonedPair (first : Nat) (bond : Shape) (second : List Nat) (differing : Bool) : Shape :=
  anyOf ((List.range' 0x1F3FB 5).map fun t =>
    chain [exactly [first, t], bond,
      joined (chain [oneOf second, point fun u => isTone u && !(differing && u = t)])])

/-- Two people in love or hand in hand. -/
def pair : Shape :=
  anyOf [chain [exactly [woman], love, joined (oneOf [man, woman])],
    chain [exactly [man], love, joined (exactly [man])],
    tonedPair man love [man] false, tonedPair woman love [man, woman] false,
    tonedPair person love [person] true,
    chain [exactly [person], hands, joined (exactly [person])],
    tonedPair person hands [person] false, tonedPair man hands [man] true,
    tonedPair woman hands [man, woman] true]

/-! ## Pictures -/

/-- The letter that a regional indicator stands for. -/
def letter (p : Nat) : Char := Char.ofNat (p - 0x1F1E6 + 0x41)

/-- Two regional indicators that spell a region. -/
def regionFlag : Shape
  | p :: q :: rest =>
    let isIndicator (p : Nat) : Bool := 0x1F1E6 ≤ p && p ≤ 0x1F1FF
    if isIndicator p && isIndicator q
        && regions.any fun r => r.1 = letter p && r.2.toList.contains (letter q) then [rest]
    else []
  | _ => []

/-- A key of a telephone with its cap. -/
def keycap : Shape :=
  chain [point fun p => p = 0x23 || p = 0x2A || (0x30 ≤ p && p ≤ 0x39), exactly [selector, 0x20E3]]

/-- The sequences that are one picture. -/
def sequence : Shape :=
  anyOf ([worker, genderedPerson, family, pair, regionFlag, keycap,
    chain [point (inRanges toned), tone]] ++ (furtherSequences ++ subdivisionFlags).map exactly)

/-- The length of the picture at the start of a text. Sequences come first, then single code points
with or without a selector. -/
def length? (t : List Nat) : Option Nat :=
  match t with
  | [] => none
  | p :: rest =>
    match sequence.longest? t with
    | some n => some n
    | none =>
      if inRanges pictures p then some 1
      else if inRanges selectable p ∧ rest.head? = some selector then some 2
      else if inRanges toned p then some 1
      else none

end Emoji

end FileProfile
