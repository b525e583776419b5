import FileProfile.Number.Numeral

/-!
Integers as double-precision numbers.

Sizes and times are kept as doubles, so an integer of more than 53 bits is rounded to the nearest
one that a double holds, ties to the even significand, and anything from 2^1024 on is infinite. An
infinite value is represented by plus or minus 2^1024.
-/

namespace FileProfile

namespace Binary64

/-- The magnitude that stands for infinity. -/
def infinity : Nat := Nat.pow 2 1024

/-- The integer with at most 53 significant bits that is nearest to `num / den`. -/
def roundRatio (num den : Nat) : Nat :=
  let shift := (num / den).log2 + 1 - 53
  let unit := Nat.pow 2 shift * den
  let below := num / unit
  let rest := num % unit
  let up := unit < 2 * rest || (unit = 2 * rest && below % 2 = 1)
  (if up then below + 1 else below) * Nat.pow 2 shift

/-- The nearest integer with at most 53 significant bits. -/
def roundNat (n : Nat) : Nat := min infinity (roundRatio n 1)

/-- The double nearest to an integer. -/
def ofInt (n : Int) : Int := if n < 0 then -(roundNat n.natAbs : Int) else roundNat n.natAbs

def isFinite (n : Int) : Bool := n.natAbs < infinity

/-- The shortest decimal that reads back as the double `n` among those with `digits` digits or
more: its digits and the number of zeros behind them. Of two neighbours on one decimal grid the
nearer is taken, and the even one where both are equally near. -/
def shortestFrom (n length : Nat) : Nat → Nat → Nat × Nat
  | 0, _ => (n, 0)
  | fuel + 1, digits =>
    let zeros := length - digits
    let unit := Nat.pow 10 zeros
    let below := n / unit
    let rest := n % unit
    let reads (m : Nat) := roundNat (m * unit) = n
    let nearest :=
      if unit < 2 * rest || (unit = 2 * rest && below % 2 = 1) then below + 1 else below
    let other := if nearest = below then below + 1 else below
    if reads nearest then (nearest, zeros)
    else if reads other then (other, zeros)
    else shortestFrom n length fuel (digits + 1)

/-- Digits without zeros at their end, and how many zeros were taken off. -/
def withoutZeros : Nat → Nat → Nat × Nat
  | 0, m => (m, 0)
  | fuel + 1, m =>
    if m ≠ 0 ∧ m % 10 = 0 then
      let (digits, zeros) := withoutZeros fuel (m / 10)
      (digits, zeros + 1)
    else (m, 0)

/-- The fewest digits that read back as `n`, and the zeros behind them. -/
def shortest (n : Nat) : Nat × Nat :=
  let length := (Numeral.decimal n).length
  let (m, zeros) := shortestFrom n length length 1
  let (digits, more) := withoutZeros length m
  (digits, zeros + more)

/-- A magnitude: positional up to 21 digits, in scientific form beyond. -/
def magnitudeText (n : Nat) : Text :=
  if infinity ≤ n then "Infinity"
  else
    let (m, zeros) := shortest n
    let digits := Numeral.decimal m
    if digits.length + zeros ≤ 21 then digits ++ List.replicate zeros ('0' : CodeUnit)
    else
      let exponent := Numeral.decimal (digits.length + zeros - 1)
      match digits with
      | [] => []
      | d :: [] => [d] ++ "e+" ++ exponent
      | d :: more => [d] ++ "." ++ more ++ "e+" ++ exponent

/-- The text of a double that is an integer. -/
def text (n : Int) : Text :=
  if n < 0 then "-" ++ magnitudeText n.natAbs else magnitudeText n.natAbs

end Binary64

end FileProfile
