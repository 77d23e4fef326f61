/-! # Arithmetic on signed words

Signed words of 64 bits with the two treatments of overflow that index arithmetic needs: `checked`
gives nothing when the exact result does not fit, `clamped` gives the nearest word. -/
set_option autoImplicit false

namespace GuestVM.Word

def least : Int := Int64.minValue.toInt
def greatest : Int := Int64.maxValue.toInt

/-- The word of an integer, if it fits. -/
def checked (n : Int) : Option Int64 :=
  if least ≤ n ∧ n ≤ greatest then some (Int64.ofInt n) else none

def clamped (n : Int) : Int64 := Int64.ofInt (max least (min greatest n))

theorem toInt_ofInt {n : Int} (above : least ≤ n) (below : n ≤ greatest) :
    (Int64.ofInt n).toInt = n := Int64.toInt_ofInt_of_le above (Int.lt_add_one_of_le below)

theorem toInt_clamped (n : Int) : (clamped n).toInt = max least (min greatest n) := by
  have order : least ≤ greatest := by decide
  exact toInt_ofInt (by omega) (by omega)

theorem checked_of_fits {n : Int} (above : least ≤ n) (below : n ≤ greatest) :
    ∃ w, checked n = some w ∧ w.toInt = n :=
  ⟨Int64.ofInt n, if_pos ⟨above, below⟩, toInt_ofInt above below⟩

theorem checked_of_not_fits {n : Int} (outside : n < least ∨ greatest < n) : checked n = none :=
  if_neg (by omega)

end GuestVM.Word
