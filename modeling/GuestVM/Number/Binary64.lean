import GuestVM.Number.Power

/-! # Binary floating point by its bits

A float of the guest is the 64 bits of its IEEE 754 encoding, so equality of the structure is
equality of bits: the two zeros differ and a NaN equals itself.  `same` is the numeric comparison,
under which the zeros are equal and a NaN equals nothing.  `ofInt` rounds an integer to the nearest
float, a tie to the even neighbour. -/
set_option autoImplicit false

namespace GuestVM

/-- A float, given by the bits of its encoding. -/
structure Binary64 where
  bits : UInt64
  deriving DecidableEq, Hashable, Inhabited

namespace Binary64

/-! ## Fields -/

def fraction (x : Binary64) : Nat := x.bits.toNat % twoTo 52

def exponentField (x : Binary64) : Nat := x.bits.toNat / twoTo 52 % twoTo 11

def isNegative (x : Binary64) : Bool := x.bits.toNat / twoTo 63 == 1

def isNaN (x : Binary64) : Bool := x.exponentField == 2047 && x.fraction != 0

def isInfinite (x : Binary64) : Bool := x.exponentField == 2047 && x.fraction == 0

def isFinite (x : Binary64) : Bool := x.exponentField != 2047

def isZero (x : Binary64) : Bool := x.exponentField == 0 && x.fraction == 0

/-- A finite float is `significand * 2 ^ scale`, up to its sign. -/
def significand (x : Binary64) : Nat :=
  if x.exponentField = 0 then x.fraction else x.fraction + twoTo 52

def scale (x : Binary64) : Int :=
  if x.exponentField = 0 then -1074 else (x.exponentField : Int) - 1075

/-! ## Comparison and rounding -/

def same (x y : Binary64) : Bool :=
  !x.isNaN && !y.isNaN && (x == y || (x.isZero && y.isZero))

/-- `n / 2 ^ s` rounded to the nearest integer, a tie to the even one. -/
def roundShift (n s : Nat) : Nat :=
  let q := n / twoTo s
  let r := n % twoTo s
  if 2 * r > twoTo s ∨ (2 * r = twoTo s ∧ q % 2 = 1) then q + 1 else q

/-- The encoding of the float nearest to `n`, without sign.  A significand that rounds up to
`2 ^ 53` carries into the exponent field, where it belongs. -/
def magnitude (n : Nat) : Nat :=
  if n = 0 then 0
  else
    let k := n.log2
    if 1024 ≤ k then 2047 * twoTo 52
    else if k ≤ 52 then (k + 1023) * twoTo 52 + (n * twoTo (52 - k) - twoTo 52)
    else (k + 1023) * twoTo 52 + (roundShift n (k - 52) - twoTo 52)

def ofInt (n : Int) : Binary64 :=
  let m := magnitude n.natAbs
  ⟨(if n < 0 then m + twoTo 63 else m).toUInt64⟩

end Binary64

end GuestVM
