import GuestVM.Machine.Raise
import GuestVM.Number.Word

/-! # Arrays

Indices count from the front, negative ones from the end.  Reading outside gives `nil`; writing
past the end fills the gap with `nil`, up to the configured limit. -/
set_option autoImplicit false

namespace GuestVM

/-- The position an index means in a sequence of `len`; negative results lie before the front. -/
def resolveIndex (index : Int64) (len : Nat) : Int :=
  if index < 0 then index.toInt + len else index.toInt

/-- The limit on array lengths as indices see it: a limit beyond the signed words reads negative. -/
def Config.indexLimit (c : Config) : Int := c.maxArrayLen.toInt64.toInt

namespace Machine

/-- The items of an array; any other value has none. -/
def items (m : Machine) (a : Value) : Array Value :=
  match m.body? a with
  | some (.array items) => items
  | _ => #[]

end Machine

namespace Act

def arrayNew (items : List Value) : Act Value := do
  return .obj (← alloc { cls := Builtin.array.id, body := .array items.toArray })

def arrayItems (a : Value) : Act (Array Value) := do
  let _ ← expectType a .array
  return (← get).items a

def arrayLen (a : Value) : Act Nat := do
  return (← arrayItems a).size

def arrayGet (a : Value) (index : Int64) : Act Value := do
  let items ← arrayItems a
  let position := resolveIndex index items.size
  return if position < 0 then .nil else items[position.toNat]?.getD .nil

/-- The items with `v` at a position, `nil` in the gap before it. -/
def itemsWith (items : Array Value) (position : Nat) (v : Value) : Array Value :=
  (items ++ Array.replicate (position + 1 - items.size) Value.nil).setIfInBounds position v

def arraySet (a : Value) (index : Int64) (v : Value) : Act Unit := do
  let id ← expectType a .array
  checkFrozen a
  let m ← get
  let items := m.items a
  let position := resolveIndex index items.size
  if position < 0 then
    fail .indexError ("index " ++ toString index.toInt
      ++ " too small for array; minimum: -" ++ toString items.size)
  if m.config.indexLimit ≤ position then
    fail .indexError ("index " ++ toString index.toInt ++ " too big")
  setBody id (.array (itemsWith items position.toNat v))

def arrayPush (a v : Value) : Act Unit := do
  let id ← expectType a .array
  checkFrozen a
  let m ← get
  let items := m.items a
  if m.config.maxArrayLen.toNat ≤ items.size then fail .argumentError "array size too big"
  setBody id (.array (items.push v))

def arrayValues (a : Value) : Act (List Value) := do
  return (← arrayItems a).toList

end Act

end GuestVM
