import GuestVM.Machine.Raise
import GuestVM.Number.Word

/-! # Ranges

A range has two bounds and may leave out the last.  `span` resolves one against a sequence of
`len` elements: negative bounds count from the end, a missing first bound is 0 and a missing last
bound the last element.  Sums that leave the signed words are out of range, or are cut to the
nearest word where only a length depends on them. -/
set_option autoImplicit false

namespace GuestVM

/-- The start of a span: a negative bound counts from the end and has to reach a word. -/
def spanStart (first len : Int) : Option Int :=
  if first < 0 then
    match Word.checked (first + len) with
    | some start => if 0 ≤ start then some start.toInt else none
    | none => none
  else some first

/-- The end of a span, counted from the front and exclusive. -/
def spanEnd (last len : Int) (exclusive trunc : Bool) : Option Int :=
  let last := if trunc ∧ len < last then len else last
  let last := if last < 0 then (Word.clamped (last + len)).toInt else last
  if !exclusive ∧ (!trunc ∨ last < len) then (Word.checked (last + 1)).map (·.toInt)
  else some last

/-- Start and length of the elements that two bounds choose from a sequence of `len`; with `trunc`
the end is cut to `len` and the start may not lie behind it. -/
def span (first last : Int) (exclusive : Bool) (len : Int) (trunc : Bool) :
    Option (Int64 × Int64) := do
  let start ← spanStart first len
  if trunc ∧ len < start then none
  let stop ← spanEnd last len exclusive trunc
  return (Word.clamped start, Word.clamped (max 0 (Word.clamped (stop - start)).toInt))

/-- A bound as an integer, when it is one. -/
def boundInt (missing : Int) : Value → Option Int
  | .nil => some missing
  | .int n => some n.toInt
  | _ => none

namespace Act

def rangeNew (first last : Value) (exclusive : Bool) : Act Value := do
  return .obj (← alloc { cls := Builtin.range.id, body := .range ⟨first, last, exclusive⟩ })

def rangeData (r : Value) : Act RangeData := do
  let _ ← expectType r .range
  match (← get).body? r with
  | some (.range data) => return data
  | _ => return ⟨.nil, .nil, false⟩

/-- The elements of a sequence of `len` that a range chooses; without a last bound the last element
counts, whatever the range says about leaving it out. -/
def rangeSpan (r : Value) (len : Int64) (trunc : Bool) : Act (Int64 × Int64) := do
  let data ← rangeData r
  match boundInt 0 data.first, boundInt (-1) data.last with
  | some first, some last =>
    match span first last (data.exclusive && !data.last.isNil) len.toInt trunc with
    | some result => return result
    | none => fail .rangeError ((← describe r) ++ " out of range")
  | _, _ => fail .typeError "no implicit conversion into Integer"

end Act

end GuestVM
