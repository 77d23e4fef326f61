import GuestVM.Machine.Raise

/-! # Procs and their environments

A proc is code with an optional environment: an object that holds values.  Only native procs may
read theirs, by index. -/
set_option autoImplicit false

namespace GuestVM

namespace Machine

def procData? (m : Machine) (proc : ObjId) : Option ProcData :=
  match m.object? proc with
  | some { body := .proc p, .. } => some p
  | _ => none

def procFlags (m : Machine) (proc : ObjId) : Option Nat := (m.procData? proc).map (·.flags.toNat)

def procIsNative (m : Machine) (proc : ObjId) : Bool := (m.procData? proc).any (·.flags.native)

def procEnv (m : Machine) (proc : ObjId) : Option ObjId := (m.procData? proc).bind (·.env)

/-- The values of an environment and whether it is shared. -/
def env? (m : Machine) (env : ObjId) : Option (Array Value × Bool) :=
  match m.object? env with
  | some { body := .env values isShared, .. } => some (values, isShared)
  | _ => none

def envValues (m : Machine) (env : ObjId) : Option (List Value) :=
  (m.env? env).map (·.1.toList)

def envIsShared (m : Machine) (env : ObjId) : Option Bool := (m.env? env).map (·.2)

def envSize (m : Machine) (env : ObjId) : Nat := ((m.env? env).map (·.1.size)).getD 0

end Machine

namespace Act

def procNew (body : ProcBody) (flags : ProcFlags) : Act ObjId :=
  alloc { cls := Builtin.proc.id, body := .proc { body := body, flags := flags } }

def newNative (code : Value → Script) : Act ObjId := procNew (.native code) { native := true }

def newLexical (code : Value → List Value → Script) : Act ObjId :=
  procNew (.lexical code) { strict := true }

def envNew (values : List Value) : Act ObjId :=
  alloc { cls := Builtin.object.id, body := .env values.toArray false }

/-- Gives a proc an environment, without checks. -/
def setEnv (proc env : ObjId) : Act Unit :=
  onHeap fun h => h.modify proc fun o =>
    match o.body with
    | .proc p =>
      { o with body := .proc { p with env := some env, flags := { p.flags with envSet := true } } }
    | _ => o

/-- The environment of a proc that has to be native and to have one. -/
def ownedEnv (proc : ObjId) : Act ObjId := do
  let m ← get
  if !m.procIsNative proc then fail .typeError "Can't get cfunc env from non-cfunc proc."
  match m.procEnv proc with
  | some env => return env
  | none => fail .typeError "Can't get cfunc env from cfunc Proc without REnv."

def envPosition (env : ObjId) (index : Int64) : Act Nat := do
  let size := (← get).envSize env
  if index < 0 ∨ (size : Int) ≤ index.toInt then
    fail .indexError ("Env index out of range: " ++ toString index.toInt
      ++ " (expected: 0 <= index < " ++ toString size ++ ")")
  return index.toInt.toNat

def procEnvGet (proc : ObjId) (index : Int64) : Act Value := do
  let env ← ownedEnv proc
  let position ← envPosition env index
  return (((← get).env? env).bind fun e => e.1[position]?).getD .nil

def procEnvSet (proc : ObjId) (index : Int64) (v : Value) : Act Unit := do
  let env ← ownedEnv proc
  let position ← envPosition env index
  onHeap fun h => h.modify env fun o =>
    match o.body with
    | .env values isShared => { o with body := .env (values.setIfInBounds position v) isShared }
    | _ => o

def ownEnvGet (index : Int64) : Act Value := do
  match (← get).frames.head? with
  | some frame => procEnvGet frame.proc index
  | none => fail .typeError "Can't get cfunc env from non-cfunc proc."

end Act

end GuestVM
