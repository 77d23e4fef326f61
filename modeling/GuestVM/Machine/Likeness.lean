import GuestVM.Machine.Closures
import GuestVM.Portrait

/-! # Taking portraits

`Machine.portrait` draws a value down to a depth.  Only the names of classes can fail to end. -/
set_option autoImplicit false

namespace GuestVM.Machine

/-- The portrait of a live object, given how to draw its parts. -/
def portraitOf (m : Machine) (draw : Value → Option Portrait) (id : ObjId) (o : Object) :
    Option Portrait := do
  let name ← m.realClassName (.obj id)
  match o.body with
  | .object => return .object id o.tag name o.frozen
  | .class _ => return .classLike id o.tag name o.frozen (← m.className id)
  | .proc p =>
    let env ← p.env.mapM fun e => draw (.obj e)
    let target ← p.target.mapM m.className
    return .proc id name o.frozen p.flags.toNat env target
  | .array items =>
    let shown ← (items.toList.take Portrait.listLimit).mapM draw
    return .array id name o.frozen items.size shown
  | .hash t =>
    let shown ← (t.entries.toList.take Portrait.listLimit).mapM fun e => do
      return (← draw e.1, ← draw e.2)
    return .hash id name o.frozen t.size shown
  | .string bytes => return .string id name o.frozen bytes
  | .range r => return .range id name o.frozen (← draw r.first) (← draw r.last) r.exclusive
  | .exception message => return .exception id name o.frozen message
  | .env values isShared =>
    let shown ← (values.toList.take Portrait.listLimit).mapM draw
    return .env id name o.frozen isShared shown
  | .istruct word => return .istruct id name o.frozen word

/-- The portrait of a value, its parts drawn to one depth less. -/
def portrait (m : Machine) : Nat → Value → Option Portrait
  | depth, .obj id =>
    match m.object? id, depth with
    | none, _ => some (.dead id)
    | some o, 0 => some (.outline id o.tag)
    | some o, depth + 1 => m.portraitOf (m.portrait depth) id o
  | _, .sym s => some (.symbol (m.symName s))
  | _, v => some (.plain v)

end GuestVM.Machine
