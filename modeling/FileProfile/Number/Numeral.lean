import FileProfile.Text.Basic

/-!
Positional numerals.
-/

namespace FileProfile

namespace Numeral

/-- The digits of a number below base 17, most significant first and without leading zeros. -/
def ofNat (base n : Nat) : Text := (Nat.toDigits base n).map CodeUnit.ofChar

def decimal (n : Nat) : Text := ofNat 10 n

/-- Decimal digits behind a minus sign where the number is negative. -/
def decimalInt (n : Int) : Text :=
  if n < 0 then "-" ++ decimal n.natAbs else decimal n.natAbs

def octal (n : Nat) : Text := ofNat 8 n

/-- Decimal digits, lengthened to `width` by zeros in front. -/
def padded (width n : Nat) : Text := Text.padStart width '0' (decimal n)

/-- Octets as pairs of lower-case hexadecimal digits. -/
def hexOctets (octets : Octets) : Text :=
  octets.flatMap fun b => Text.padStart 2 '0' (ofNat 16 b.toNat)

/-- The number that decimal digits spell, where all units are digits and there is one. -/
def decimal? (t : Text) : Option Nat :=
  if t ≠ [] ∧ t.all CodeUnit.isDigit then
    some (t.foldl (fun n u => n * 10 + (u.toNat - 0x30)) 0)
  else none

example : decimalInt (-120) = "-120" := by decide
example : octal 493 = "755" := by decide

end Numeral

end FileProfile
