import GuestVM.Machine.Inspect

/-! # Raising exceptions

An exception is raised by making it the current one and sending a `Raised` up.  Only exception
objects can be raised; anything else is answered with a TypeError.  Built on this are the checks
that other operations begin with. -/
set_option autoImplicit false

namespace GuestVM.Act

/-- Makes an exception without raising it. -/
def exceptionNew (c : ObjId) (message : String) : Act Value := do
  return .obj (← alloc { cls := c, body := .exception message })

def exceptionRaise (v : Value) : Act Raised := do
  let v ←
    if (← get).typeOf v = .exception then pure v
    else exceptionNew Builtin.typeError.id "exception class/object expected"
  modify fun m => { m with exc := v.asObj }
  let m ← get
  let name ← ofOption (m.realClassName v)
  return { value := v, className := name, message := m.exceptionMessage v }

def raise (c : ObjId) (message : String) : Act Raised := do
  exceptionRaise (← exceptionNew c message)

def fail {α : Type} (b : Builtin) (message : String) : Act α := throwing (raise b.id message)

def attempt {α : Type} (a : Act α) : Act (Except Raised α) := ExceptT.mk do
  match ← a.run with
  | .ok x => return .ok (.ok x)
  | .error (.raised e) => return .ok (.error e)
  | .error .endless => return .error .endless

def clearException : Act Unit := modify fun m => { m with exc := none }

/-! ## Checks -/

def frozenError (v : Value) : Act Raised := do
  let name ← ofOption ((← get).realClassName v)
  raise Builtin.frozenError.id ("can't modify frozen " ++ name)

def checkFrozen (v : Value) : Act Unit := do
  if v.asObj.isSome ∧ (← get).isFrozen v then throwing (frozenError v)

/-- The text of a value, for a message. -/
def describe (v : Value) : Act String := do
  ofOption ((← get).inspect v)

def expectType (v : Value) (t : ValueType) : Act ObjId := do
  let m ← get
  match v.asObj with
  | some id =>
    if m.typeOf v = t then return id
    else fail .typeError ((← describe v) ++ " cannot be converted to " ++ t.name)
  | none => fail .typeError ((← describe v) ++ " cannot be converted to " ++ t.name)

/-- Refuses values that are no class, module or singleton class. -/
def expectClass (v : Value) : Act ObjId := do
  let m ← get
  match v.asObj with
  | some id =>
    if (m.typeOf v).isClassLike then return id
    else fail .typeError ((← describe v) ++ " is not a class/module")
  | none => fail .typeError ((← describe v) ++ " is not a class/module")

/-- Refuses values that are no procs. -/
def expectProc (v : Value) : Act ObjId := do
  let m ← get
  match v.asObj with
  | some id =>
    if m.typeOf v = .proc then return id
    else fail .typeError ((← describe v) ++ " is not a Proc")
  | none => fail .typeError ((← describe v) ++ " is not a Proc")

end GuestVM.Act
