import GuestVM.Machine.Lineage
import GuestVM.Number.Shortest
import GuestVM.Text.Utf8

/-! # Written values

The short text of a value that messages show, and the names of classes, which for singleton classes
contain the text of a value.  Arrays and ranges are written with their parts, so the text of a value
that contains itself has no end: `inspect` then gives nothing.  A value whose parts are nested
through distinct objects is nested no deeper than the heap has slots, so that many levels decide. -/
set_option autoImplicit false

namespace GuestVM.Machine

/-- The name of a class, given the texts of values. -/
def classNameBy (m : Machine) (text : Value → Option String) (c : ObjId) : Option String :=
  match m.classData? c with
  | some { name := some s, .. } => some (m.symName s)
  | some { kind := .singleton attached, .. } => do
    return "#<Class:" ++ (← text attached) ++ ">"
  | _ => some ("#<Class:" ++ c.text ++ ">")

/-- The text of a value nested less than `n` levels deep. -/
def inspectWithin (m : Machine) : Nat → Value → Option String
  | 0, _ => none
  | n + 1, v =>
    match v with
    | .nil => some "nil"
    | .bool b => some (toString b)
    | .int i => some (toString i.toInt)
    | .float x => some x.render
    | .sym s => some (":" ++ m.symName s)
    | .undefined => some "undef"
    | .obj id =>
      match m.body? v with
      | none => some ("#<dead " ++ id.text ++ ">")
      | some (.string bytes) => some (Text.quoted (Text.decode bytes))
      | some (.class _) => m.classNameBy (m.inspectWithin n) id
      | some (.range r) => do
        let first ← m.inspectWithin n r.first
        let last ← m.inspectWithin n r.last
        return first ++ (if r.exclusive then "..." else "..") ++ last
      | some (.array items) => do
        let parts ← items.toList.mapM (m.inspectWithin n)
        return "[" ++ ", ".intercalate parts ++ "]"
      | some _ => do
        let name ← m.classNameBy (m.inspectWithin n) (← m.realClassOf? v)
        return "#<" ++ name ++ ":" ++ id.text ++ ">"

/-- The text of a value, unless it has no end. -/
def inspect (m : Machine) (v : Value) : Option String := m.inspectWithin (m.heap.slots.size + 1) v

def className (m : Machine) (c : ObjId) : Option String := m.classNameBy m.inspect c

def realClassName (m : Machine) (v : Value) : Option String := do
  m.className (← m.realClassOf? v)

/-- The machine as diagnostics show it. -/
def summary (m : Machine) : String :=
  "Vm \x7b handle: " ++ m.handle.text ++ ", live_objects: " ++ toString m.heap.live
    ++ ", call_depth: " ++ toString m.frames.length ++ " \x7d"

end GuestVM.Machine
