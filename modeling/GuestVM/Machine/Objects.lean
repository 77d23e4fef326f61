import GuestVM.Machine.Raise

/-! # Plain objects and the collector

Making objects without a built-in class, editing one from outside the rules, and collecting what
nothing reaches any more. -/
set_option autoImplicit false

namespace GuestVM

/-! ## Roots -/

/-- The ids a machine itself holds: its classes, the main object, the globals, the current
exception and the running calls. -/
def Machine.roots (m : Machine) : List ObjId :=
  Builtin.all.map (·.id) ++ m.top :: Value.objects m.globals.values ++ m.exc.toList
    ++ m.frames.flatMap Frame.references

/-! ## Edits -/

def Edit.apply (e : Edit) (o : Object) : Object :=
  match e with
  | .thaw => { o with frozen := false }
  | .toObject => { o with body := .object }
  | .toIStruct word => { o with body := .istruct word }
  | .toString bytes => { o with body := .string bytes }
  | .toArray => { o with body := .array #[] }
  | .toHash => { o with body := .hash .empty }

namespace Act

def objectNew (c : ObjId) : Act Value := do
  if (← get).typeOf (.obj c) ≠ .plainClass then fail .typeError "allocator needs a Class"
  return .obj (← alloc { cls := c, body := .object })

def istructNew (c : ObjId) (word : Int64) : Act Value := do
  return .obj (← alloc { cls := c, body := .istruct word })

/-- Edits an object and says whether it was alive. -/
def edit (id : ObjId) (e : Edit) : Act Bool := do
  let alive := ((← get).object? id).isSome
  onHeap fun h => h.modify id e.apply
  return alive

def collect : Act Nat := do
  let m ← get
  let (freed, heap) := m.heap.collect m.roots
  set { m with heap := heap }
  return freed.getD 0

/-- Allows or forbids collection and says whether it was forbidden. -/
def setCollecting (on : Bool) : Act Bool := do
  let m ← get
  let (before, heap) := m.heap.setDisabled !on
  set { m with heap := heap }
  return before

end Act

end GuestVM
