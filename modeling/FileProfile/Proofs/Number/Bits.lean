import FileProfile.FileKind
import FileProfile.Number.Binary64
import Mathlib.Algebra.Group.Nat.Defs

/-!
Bits of modes.

Taking the permission bits of a mode is taking its remainder by 4096, and looking at one of them
does not depend on what stands above them. A mode fits into a double.
-/

namespace FileProfile

namespace Word32

theorem ofInt_natCast {b : Nat} (small : b < modulus) : ofInt b = b := by
  unfold ofInt
  rw [Int.emod_eq_of_lt (Int.natCast_nonneg b) (Int.ofNat_lt.mpr small), Int.toNat_natCast]

/-- The bits of a mask whose highest bit is not the sign. -/
theorem land_natCast {b : Nat} (small : 2 * b < modulus) (a : Int) :
    land a b = ((ofInt a &&& b : Nat) : Int) := by
  have below : ofInt a &&& b ≤ b := Nat.and_le_right
  unfold land
  rw [ofInt_natCast (by omega)]
  have size : modulus = 4294967296 := rfl
  rw [Int.bmod_def, Int.emod_eq_of_lt (Int.natCast_nonneg _) (by omega), if_pos (by omega)]

end Word32

/-- A double holds a number of at most 53 bits as it is. -/
theorem Binary64.ofInt_natCast {n : Nat} (small : n < 2 ^ 53) : Binary64.ofInt n = n := by
  have exact : Binary64.roundRatio n 1 = n := by
    have shift : (n / 1).log2 + 1 - 53 = 0 := by
      rw [Nat.div_one]
      by_cases zero : n = 0
      · rw [zero]
        decide
      · have bits := (Nat.log2_lt zero).mpr small
        omega
    unfold Binary64.roundRatio
    dsimp only
    rw [shift]
    simp [Nat.mod_one]
  have finite : n ≤ Binary64.infinity := by
    have larger : ∀ m, 53 ≤ m → n ≤ Nat.pow 2 m := fun m above =>
      Nat.le_of_lt (Nat.lt_of_lt_of_le small (Nat.pow_le_pow_right (by decide) above))
    unfold Binary64.infinity
    exact larger 1024 (by decide)
  have positive : ¬ ((n : Int) < 0) := Int.not_lt.mpr (Int.natCast_nonneg n)
  rw [Binary64.ofInt, if_neg positive, Int.natAbs_natCast, Binary64.roundNat, exact,
    Nat.min_eq_right finite]

theorem permissionBits_eq (mode : Int) : permissionBits mode = mode % 4096 := by
  have mask : permissionBits mode = ((Word32.ofInt mode &&& 2 ^ 12 - 1 : Nat) : Int) :=
    Word32.land_natCast (by decide) mode
  have size : Word32.modulus = 4294967296 := rfl
  rw [mask, Nat.and_two_pow_sub_one_eq_mod, Word32.ofInt, size]
  omega

theorem permissionBits_nonneg (mode : Int) : 0 ≤ permissionBits mode := by
  rw [permissionBits_eq]
  omega

theorem permissionBits_lt (mode : Int) : permissionBits mode < 4096 := by
  rw [permissionBits_eq]
  omega

/-- Looking at permission bits before or after cutting off the type bits is the same. -/
theorem land_permissionBits {b : Nat} (within : 0o7777 &&& b = b) (mode : Int) :
    Word32.land (permissionBits mode) b = Word32.land mode b := by
  have small : b < 0o10000 := by
    have below : 0o7777 &&& b ≤ 0o7777 := Nat.and_le_left
    omega
  have size : Word32.modulus = 4294967296 := rfl
  have bits : Word32.ofInt (permissionBits mode) = Word32.ofInt mode &&& 0o7777 := by
    have mask : permissionBits mode = ((Word32.ofInt mode &&& 0o7777 : Nat) : Int) :=
      Word32.land_natCast (by decide) mode
    have below : Word32.ofInt mode &&& 0o7777 ≤ 0o7777 := Nat.and_le_right
    rw [mask, Word32.ofInt_natCast (by omega)]
  rw [Word32.land_natCast (by omega), Word32.land_natCast (by omega), bits, Nat.and_assoc, within]

/-- Bits above a mask do not change what it takes. -/
theorem land_permissionBits_add {b : Nat} (within : 0o7777 &&& b = b) (mode : Int) :
    Word32.land (0o100000 + permissionBits mode) b = Word32.land mode b := by
  have same : permissionBits (0o100000 + permissionBits mode) = permissionBits mode := by
    rw [permissionBits_eq, permissionBits_eq]
    omega
  rw [← land_permissionBits within, same, land_permissionBits within]

/-- The type bits of a regular file above its permission bits. -/
theorem ofMode_regular (mode : Int) :
    FileKind.ofMode (0o100000 + permissionBits mode) = .regular := by
  obtain ⟨b, shape⟩ := Int.eq_ofNat_of_zero_le (permissionBits_nonneg mode)
  have small : b < 4096 := by
    have below := permissionBits_lt mode
    omega
  have size : Word32.modulus = 4294967296 := rfl
  have low : b &&& 0o170000 = 0 := by
    have own : b &&& 0o7777 = b := Nat.and_two_pow_sub_one_of_lt_two_pow (n := 12) small
    rw [← own, Nat.and_assoc]
    exact Nat.and_zero b
  have sum : (0o100000 + permissionBits mode : Int) = ((0o100000 ||| b : Nat) : Int) := by
    have high : 2 ^ 12 * 8 + b = 2 ^ 12 * 8 ||| b := Nat.two_pow_add_eq_or_of_lt small 8
    rw [shape]
    exact (Int.natCast_add 0o100000 b).symm.trans (congrArg Nat.cast high)
  have below : 0o100000 ||| b < Word32.modulus := by
    have whole : 0o100000 + b = 0o100000 ||| b := Nat.two_pow_add_eq_or_of_lt (i := 12) small 8
    omega
  have bits : FileKind.typeBits (0o100000 + permissionBits mode) = 0o100000 := by
    unfold FileKind.typeBits
    rw [sum]
    refine (Word32.land_natCast (b := 0o170000) (by decide) _).trans ?_
    rw [Word32.ofInt_natCast below, Nat.and_or_distrib_right, low]
    rfl
  unfold FileKind.ofMode
  rw [bits]
  decide

end FileProfile
