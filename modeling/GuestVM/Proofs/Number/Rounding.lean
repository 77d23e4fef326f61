import GuestVM.Number.Binary64

/-! # Integers in other forms

An integer of no more than 64 bits is rounded to a finite float: the encoding of the float stays below
that of infinity (`Binary64.isFinite_ofInt`).  An unsigned word has the bits of a signed one, which is
the same number or less by a power of two (`toInt_toInt64`). -/
set_option autoImplicit false

namespace GuestVM

namespace Binary64

/-! ## Integers as floats -/

theorem roundShift_le (n s : Nat) : roundShift n s ≤ n / twoTo s + 1 := by
  unfold roundShift
  dsimp only
  split
  · exact Nat.le_refl _
  · exact Nat.le_succ _

theorem magnitude_lt {n : Nat} (small : n < twoTo 64) : magnitude n < 2047 * twoTo 52 := by
  have place : 0 < twoTo 52 := Nat.two_pow_pos 52
  unfold magnitude
  by_cases zero : n = 0
  · rw [if_pos zero]
    exact Nat.mul_pos (by decide) place
  rw [if_neg zero]
  dsimp only
  have few : n.log2 < 64 := (Nat.log2_lt zero).mpr small
  have below : n < 2 ^ (n.log2 + 1) := Nat.lt_log2_self
  -- A significand that rounds up has a bit more, and counts for one in the exponent.
  have carried : ∀ significand, significand ≤ 2 * twoTo 52 →
      (n.log2 + 1023) * twoTo 52 + (significand - twoTo 52) < 2047 * twoTo 52 := by
    intro significand bound
    have exponent := Nat.mul_le_mul_right (twoTo 52) (show n.log2 + 1023 ≤ 1086 by omega)
    omega
  rw [if_neg (by omega)]
  split
  case isTrue short =>
      refine carried _ (Nat.le_of_lt ?_)
      calc n * twoTo (52 - n.log2)
          < 2 ^ (n.log2 + 1) * 2 ^ (52 - n.log2) :=
            Nat.mul_lt_mul_of_pos_right below (Nat.two_pow_pos _)
        _ = 2 * twoTo 52 := by
            rw [← Nat.pow_add, show n.log2 + 1 + (52 - n.log2) = 53 by omega]
            rfl
  case isFalse long =>
      refine carried _ (Nat.le_trans (roundShift_le _ _) (Nat.div_lt_of_lt_mul ?_))
      calc n < 2 ^ (n.log2 + 1) := below
        _ = 2 ^ (n.log2 - 52) * 2 ^ 53 := by
            rw [← Nat.pow_add, show n.log2 - 52 + 53 = n.log2 + 1 by omega]
        _ = twoTo (n.log2 - 52) * (2 * twoTo 52) := rfl

theorem isFinite_ofInt {n : Int} (small : n.natAbs < twoTo 64) : (ofInt n).isFinite := by
  have bound := magnitude_lt small
  have fraction : twoTo 52 = 4503599627370496 := rfl
  have exponent : twoTo 11 = 2048 := rfl
  have sign : twoTo 63 = 9223372036854775808 := rfl
  have field : (ofInt n).exponentField = magnitude n.natAbs / twoTo 52 := by
    unfold exponentField ofInt
    simp only [Nat.toUInt64, UInt64.toNat_ofNat', exponent]
    rw [fraction, sign]
    split <;> omega
  have less : magnitude n.natAbs / twoTo 52 < 2047 :=
    Nat.div_lt_of_lt_mul (by rwa [Nat.mul_comm])
  rw [isFinite, field]
  exact bne_iff_ne.mpr (Nat.ne_of_lt less)

end Binary64

/-! ## Unsigned words as signed ones -/

theorem toInt_toInt64 (n : UInt64) :
    n.toInt64.toInt =
      if n.toNat < twoTo 63 then (n.toNat : Int) else n.toNat - (twoTo 64 : Nat) := by
  have bound := n.toNat_lt
  have size : twoTo 64 = 2 ^ 64 := rfl
  have half : twoTo 63 = 2 ^ 63 := rfl
  have bits : n.toInt64.toInt = (n.toNat : Int).bmod (twoTo 64) := by
    rw [size, ← UInt64.toNat_toBitVec, ← BitVec.toInt_eq_toNat_bmod]
    exact Int64.toInt_toBitVec _
  rw [bits, Int.bmod_def, size, half]
  split <;> split <;> omega

end GuestVM
