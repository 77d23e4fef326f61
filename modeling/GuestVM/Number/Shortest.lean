import GuestVM.Number.Binary64

/-! # The shortest decimal of a float

The written form of a float has the fewest digits that read back as the same float; among those the
decimal nearest to its exact value, the upper one of two equally near.  `shortest` finds it in exact
arithmetic: on the grid of one digit, then of two, and so on, it tries the two neighbours of the
value, and the first grid with a neighbour inside the rounding interval decides.

`Binary64.render` lays the digits out: always positional, no exponent, no point when the value is
whole, a sign on negative zero. -/
set_option autoImplicit false

namespace GuestVM

/-- The decimal `digits * 10 ^ exponent`. -/
structure Decimal where
  digits : Nat
  exponent : Int
  deriving DecidableEq

namespace Decimal

/-- Drops the zeros of a power of ten, which a carry leaves behind. -/
def trim (d : Decimal) : Decimal :=
  match (List.range 18).find? fun n => d.digits = tenTo n with
  | some n => ⟨1, d.exponent + n⟩
  | none => d

/-- Positional layout without exponent. -/
def render (d : Decimal) : String :=
  let ds := Nat.toDigits 10 d.digits
  match d.exponent with
  | .ofNat n => String.ofList (ds ++ List.replicate n '0')
  | .negSucc n =>
    let places := n + 1
    if places < ds.length then
      String.ofList (ds.take (ds.length - places) ++ '.' :: ds.drop (ds.length - places))
    else
      String.ofList ('0' :: '.' :: List.replicate (places - ds.length) '0' ++ ds)

end Decimal

/-- A positive value `value / unit` between the bounds of the reals that round to it; the bounds
belong to the interval when `closed` holds. -/
structure RoundingInterval where
  low : Nat
  value : Nat
  high : Nat
  unit : Nat
  closed : Bool
  deriving DecidableEq

namespace RoundingInterval

/-- The interval of a positive finite float.  Below a power of two floats lie twice as close. -/
def ofFloat (x : Binary64) : RoundingInterval :=
  let m := 4 * x.significand
  let below := if x.fraction = 0 ∧ x.exponentField ≠ 0 then 1 else 2
  let up := twoTo (x.scale - 2).toNat
  { low := (m - below) * up
    value := m * up
    high := (m + 2) * up
    unit := twoTo (2 - x.scale).toNat
    closed := x.significand % 2 = 0 }

/-- Whether the decimal lies in the interval. -/
def holds (r : RoundingInterval) (d : Decimal) : Bool :=
  let num := d.digits * tenTo d.exponent.toNat * r.unit
  let den := tenTo (-d.exponent).toNat
  if r.closed then r.low * den ≤ num ∧ num ≤ r.high * den
  else r.low * den < num ∧ num < r.high * den

/-- The least `k` with `value / unit < 10 ^ k`. -/
def magnitude (r : RoundingInterval) : Int :=
  if r.unit ≤ r.value then ((Nat.toDigits 10 (r.value / r.unit)).length : Int)
  else
    match (List.range 400).find? fun j => r.unit ≤ r.value * tenTo j with
    | some j => 1 - (j : Int)
    | none => 0

/-- The neighbour inside the interval that is nearest to the value on the grid of `n` digits. -/
def onGrid (r : RoundingInterval) (n : Nat) : Option Decimal :=
  let e := r.magnitude - n
  let num := r.value * tenTo (-e).toNat
  let den := r.unit * tenTo e.toNat
  let down : Decimal := ⟨num / den, e⟩
  let up : Decimal := ⟨num / den + 1, e⟩
  match r.holds down, r.holds up with
  | true, true => some (if den ≤ 2 * (num % den) then up else down)
  | true, false => some down
  | false, true => some up
  | false, false => none

def shortest (r : RoundingInterval) : Decimal :=
  (((List.range' 1 17).findSome? r.onGrid).getD ⟨0, 0⟩).trim

end RoundingInterval

def Binary64.render (x : Binary64) : String :=
  if x.isNaN then "NaN"
  else
    let text :=
      if x.isInfinite then "inf"
      else if x.isZero then "0"
      else (RoundingInterval.ofFloat x).shortest.render
    if x.isNegative then "-" ++ text else text

end GuestVM
