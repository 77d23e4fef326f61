import GuestVM.Machine.Closures

/-! # Environments of bridged procs

A proc linked to host code carries the number of its callable in an environment.  Environments are
attached once: a proc that has one with values in it gets no other. -/
set_option autoImplicit false

namespace GuestVM

def Machine.attachedLen (m : Machine) (proc : Value) : Nat :=
  ((proc.asObj.bind m.procEnv).map m.envSize).getD 0

namespace Act

/-- Runs an action and then cuts the arena back to where it was, also when the action raises. -/
def inArenaScope {α : Type} (a : Act α) : Act α := ExceptT.mk do
  let mark := (← get).heap.arenaSave
  let result ← a.run
  modify fun m => { m with heap := m.heap.arenaRestore mark }
  return result

/-- Gives a proc an environment with some values, of which there has to be one. -/
def attachEnv (proc : Value) (values : List Value) : Act Unit := do
  if proc.isNil then fail .typeError "RProc is empty."
  let id ← expectProc proc
  if values.isEmpty then fail .argumentError "environment needs at least one value"
  if 0 < (← get).attachedLen proc then fail .typeError "Expected empty RProc environment."
  inArenaScope do
    let env ← envNew values
    setEnv id env

def envOwner (proc : Value) : Act ObjId := do
  let m ← get
  match proc with
  | .obj id =>
    if m.typeOf proc = .proc then return id
    else fail .typeError "Can't get cfunc env from non-cfunc proc."
  | _ => fail .typeError "Can't get cfunc env from non-cfunc proc."

def envGet (proc : Value) (index : Int64) : Act Value := do
  procEnvGet (← envOwner proc) index

def envSet (proc : Value) (index : Int64) (v : Value) : Act Unit := do
  procEnvSet (← envOwner proc) index v

end Act

end GuestVM
