import GuestVM.Machine.Raise

/-! # Strings

A string is a sequence of bytes, usually but not always UTF-8.  Read as text, each faulty stretch
becomes one replacement character. -/
set_option autoImplicit false

namespace GuestVM

/-- The bytes of a string; any other value has none. -/
def Machine.bytes (m : Machine) (s : Value) : List UInt8 :=
  match m.body? s with
  | some (.string bytes) => bytes
  | _ => []

namespace Act

def stringNew (bytes : List UInt8) : Act Value := do
  return .obj (← alloc { cls := Builtin.string.id, body := .string bytes })

def stringBytes (s : Value) : Act (List UInt8) := do
  let _ ← expectType s .string
  return (← get).bytes s

def stringText (s : Value) : Act String := do
  return Text.decode (← stringBytes s)

def stringLen (s : Value) : Act Nat := do
  return (← stringBytes s).length

def stringAppend (s : Value) (tail : String) : Act Unit := do
  let id ← expectType s .string
  checkFrozen s
  setBody id (.string ((← get).bytes s ++ Text.encode tail))

end Act

end GuestVM
