import GuestVM.Machine.Arrays
import GuestVM.Machine.Hashes

/-! # Typed handles

Host code that has checked a value once keeps its id as a typed handle.  The object may have died
since, so every operation checks again; these are the two that the machine itself does not have. -/
set_option autoImplicit false

namespace GuestVM.Act

/-- An element of an array, or `default` where there is none. -/
def itemOr (a : ObjId) (index : Int64) (default : Value) : Act Value := do
  let len ← arrayLen (.obj a)
  if (len : Int) ≤ index.toInt ∨ index.toInt < -(len : Int) then return default
  arrayGet (.obj a) index

/-- The value under a key; a missing key raises KeyError. -/
def fetch (h : ObjId) (key : Value) : Act Value := do
  match ← hashGet (.obj h) key with
  | some v => return v
  | none => fail .keyError ("key not found: " ++ (← describe key))

end GuestVM.Act
