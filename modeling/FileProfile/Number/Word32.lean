/-!
The low 32 bits of integers, read as a signed word.
-/

namespace FileProfile

namespace Word32

/-- How many words there are. -/
def modulus : Nat := 0x100000000

/-- The word of an integer, without a sign. -/
def ofInt (a : Int) : Nat := (a % modulus).toNat

/-- The signed word with the bits that `a` and `b` share. -/
def land (a b : Int) : Int := Int.bmod (ofInt a &&& ofInt b : Nat) modulus

/-- Whether all bits of `flag` are set in `flags`. A flag beyond the words is never set. -/
def has (flags flag : Int) : Bool := land flags flag = flag

example : land (-1) 0o7777 = 0o7777 := by decide
example : has 0x80000000 0x80000000 = false := by decide

end Word32

end FileProfile
