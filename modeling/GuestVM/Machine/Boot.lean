import GuestVM.Machine.Define

/-! # Opening a machine

A new machine has the built-in classes bound to their names in `Object`, their singleton classes,
and the main object.  Nothing of this needs the arena, which starts empty. -/
set_option autoImplicit false

namespace GuestVM

def Act.bootClass (b : Builtin) : Act Unit := do
  let _ ← Act.newClass b.name (b.parent?.map (·.id)) (if b = .kernel then .module else .plain)

def Act.bootName (b : Builtin) : Act Unit := do
  Act.putConst Builtin.object.id (← Act.intern b.name) b.value

def Act.boot : Act Unit := do
  Builtin.all.forM Act.bootClass
  Builtin.all.forM Act.bootName
  Builtin.metaOrder.forM fun b => do
    let _ ← Act.singletonClass b.value
  let top ← Act.alloc { cls := Builtin.object.id, body := .object }
  modify fun m => { m with top := top }
  Act.onHeap fun h => h.arenaRestore 0

def Machine.opened (handle : Handle) (config : Config) : Machine :=
  (Act.boot.run.run { handle := handle, config := config }).2

end GuestVM
