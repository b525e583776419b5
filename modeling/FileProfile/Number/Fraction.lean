import FileProfile.Number.Binary64

/-!
Double-precision numbers between the integers.

Every finite double is a multiple of the least positive one, 2^-1074, so a magnitude is kept as the
number of such steps. `Binary64.ofRatio` rounds a quotient to a double, and `Fraction.text` writes
one in the fewest decimal digits that read back.
-/

namespace FileProfile

namespace Binary64

/-- The steps in one. -/
def stepsPerUnit : Nat := Nat.pow 2 1074

/-- The steps of the double nearest to `num / den`, ties to the even significand. -/
def ofRatio (num den : Nat) : Nat := roundRatio (num * stepsPerUnit) den

end Binary64

/-- A double that is no integer, by its sign and the steps of its magnitude. -/
structure Fraction where
  negative : Bool
  steps : Nat
deriving DecidableEq, Repr

namespace Fraction

/-- The numerator and the denominator of `m * 10 ^ e`. -/
def decimalRatio (m : Nat) (e : Int) : Nat × Nat :=
  (m * Nat.pow 10 e.toNat, Nat.pow 10 (-e).toNat)

/-- The steps of the double nearest to `m * 10 ^ e`. -/
def ofDecimal (m : Nat) (e : Int) : Nat :=
  Binary64.ofRatio (decimalRatio m e).1 (decimalRatio m e).2

/-- The decimal digits in front of the point, or minus the zeros directly behind it. -/
def pointPlace (steps : Nat) : Nat → Int → Int
  | 0, place => place
  | fuel + 1, place =>
    let (num, den) := decimalRatio 1 (place - 1)
    if num * Binary64.stepsPerUnit ≤ steps * den then place else pointPlace steps fuel (place - 1)

/-- The shortest digits that read back as a magnitude, and the power of ten behind them. Of two
neighbours on one decimal grid the nearer is taken, and the even one where both are equally near. -/
def shortestFrom (steps : Nat) : Nat → Int → Nat × Int
  | 0, e => (0, e)
  | fuel + 1, e =>
    let (num, den) := decimalRatio 1 e
    let unit := num * Binary64.stepsPerUnit
    let below := steps * den / unit
    let rest := steps * den % unit
    let nearest :=
      if unit < 2 * rest || (unit = 2 * rest && below % 2 = 1) then below + 1 else below
    let other := if nearest = below then below + 1 else below
    if ofDecimal nearest e = steps then (nearest, e)
    else if ofDecimal other e = steps then (other, e)
    else shortestFrom steps fuel (e - 1)

/-- The greatest place of the point in a double that is no integer, and more than the distance from
there to the least. -/
def firstPlace : Int := 17

def placeCount : Nat := 400

/-- Digits around a point, which stands behind the first `place` of them; in scientific form below
one millionth. -/
def digitsText (digits : Text) (place : Int) : Text :=
  if 0 < place then digits.take place.toNat ++ "." ++ digits.drop place.toNat
  else if -6 < place then
    "0." ++ List.replicate (-place).toNat ('0' : CodeUnit) ++ digits
  else
    let exponent := "e-" ++ Numeral.decimal (1 - place).toNat
    match digits with
    | [] => []
    | d :: [] => [d] ++ exponent
    | d :: more => [d] ++ "." ++ more ++ exponent

/-- The decimal text of a fraction. -/
def text (f : Fraction) : Text :=
  let place := pointPlace f.steps placeCount firstPlace
  let (m, e) := shortestFrom f.steps placeCount place
  let digits := Numeral.decimal m
  let magnitude := digitsText digits (digits.length + e)
  if f.negative then "-" ++ magnitude else magnitude

end Fraction

end FileProfile
