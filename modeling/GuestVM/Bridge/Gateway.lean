import GuestVM.Bridge.Callable
import GuestVM.Bridge.Environment
import GuestVM.Bridge.Escalation
import GuestVM.Machine.Arrays
import GuestVM.Machine.Define

/-! # The way from the guest to a host callable

A bridged proc is native code that reads the number of its callable from its environment, runs the
callable, and raises the result if it is the current exception: `gateway`.  What the callable put on
the arena is taken off again, and its result kept.

`Act.resolveCall` decides whether a callable found in a table may run, and `Act.defineCallable`
installs bridged procs as methods. -/
set_option autoImplicit false

namespace GuestVM

/-! ## Running a callable -/

/-- After a callable: the arena is cut back to `mark`, the result kept, and raised if it is live. -/
def gatewayEnd (mark : Nat) (result : Value) : Script :=
  .guest (.arenaRestore mark) fun _ =>
    match result.asObj with
    | some id => .guest (.arenaPush id) fun _ => .bridge (.raiseIfLive result) Script.ofResult
    | none => .bridge (.raiseIfLive result) Script.ofResult

/-- Runs callable number `function`, which takes its arguments in the given form. -/
def gatewayRun (form : Form) (receiver : Value) (function : Nat) : Script :=
  .bridge .currentIndex fun index =>
    .guest .arenaSave fun mark =>
      match form with
      | .bound => .hostCall .bound index receiver function .nil (gatewayEnd mark)
      | .free =>
        .guest .args fun items =>
          .guest (.arrayNew items) fun args =>
            .hostCall .free index receiver function args (gatewayEnd mark)

def gateway (form : Form) (receiver : Value) : Script :=
  .guest (.ownEnvGet 0) fun
    | .error e => .done (.raised e)
    | .ok v =>
      match v.asInt.filter (0 ≤ ·) with
      | some function => gatewayRun form receiver function.toInt.toNat
      | none =>
        .guest (.inspect v) fun (text : String) =>
          .guest (.raise Builtin.typeError.id
              ("callback index must be a non-negative Integer, got " ++ text))
            fun e => .done (.raised e)

namespace Act

/-- What messages call a callable: the name of the running method, or its number. -/
def callableName (function : Nat) : Act String := do
  let m ← get
  match m.frames.head?.bind (·.mid) with
  | some mid => return m.symName mid
  | none => return "#" ++ toString function

/-- The exception for a number that leads to no callable. -/
def missingCallable (function : Nat) : Act Value := do
  let name ← callableName function
  hostRaise Builtin.runtimeError.id ("Function '" ++ name ++ "' reference not found.")

def formName : Form → String
  | .bound => "bound method"
  | .free => "free callable"

/-- The exception for a callable of the other form. -/
def wrongForm (function : Nat) (form : Form) : Act Value := do
  let name ← callableName function
  hostRaise Builtin.typeError.id ("Function '" ++ name ++ "' is not a " ++ formName form ++ ".")

/-- Checks the number of arguments of a free callable that requires some; an exception found on the
way is the result. -/
def checkArity (aspec : Aspec) (args : Value) : Act (Option Value) := do
  if aspec.required = 0 then return none
  match ← attempt (arrayLen args) with
  | .error e => return some e.value
  | .ok argc =>
    if aspec.accepts argc then return none
    return some (← hostRaise Builtin.argumentError.id
      ("wrong number of arguments (given " ++ toString argc ++ ", expected "
        ++ toString aspec.required.toNat ++ ")"))

/-- The callable that a call runs, or the exception it results in instead. -/
def resolveCall (slot : Option CallableSlot) (form : Form) (function : Nat) (args : Value) :
    Act (Except Value Callable) := do
  match slot with
  | none => return .error (← missingCallable function)
  | some s =>
    if s.form ≠ form then return .error (← wrongForm function form)
    match form with
    | .bound => return .ok s.callable
    | .free =>
      match ← checkArity s.aspec args with
      | some v => return .error v
      | none => return .ok s.callable

/-! ## Bridged methods -/

/-- A bridged proc for a callable, its number in its environment. -/
def newBridged (form : Form) (function : Nat) : Act ObjId := do
  let proc ← newNative (gateway form)
  attachEnv (.obj proc) [.int (Int64.ofNat function)]
  return proc

/-- Installs a bridged proc as a method; the arena is afterwards as it was before. -/
def defineBridged (form : Form) (c : ObjId) (name : String) (function : Nat) (aspec : Aspec) :
    Act ObjId :=
  inArenaScope do
    let proc ← newBridged form function
    let mid ← intern name
    defineMethod c mid { proc := proc, noArg := aspec.isNone }
    return proc

/-- Installs a bridged proc on the singleton class of a value. -/
def defineBridgedOn (form : Form) (v : Value) (name : String) (function : Nat) (aspec : Aspec) :
    Act ObjId := do
  defineBridged form (← singletonClass v) name function aspec

/-- Installs a bridged proc in its place. -/
def defineCallable (form : Form) (place : Placement) (name : String) (function : Nat)
    (aspec : Aspec) : Act ObjId := do
  match place with
  | .method c => defineBridged form c name function aspec
  | .classMethod c => defineBridgedOn form (.obj c) name function aspec
  | .singletonMethod v => defineBridgedOn form v name function aspec
  | .moduleFunction c =>
    let _ ← defineBridgedOn form (.obj c) name function aspec
    defineBridged form c name function aspec

/-- A bridged proc on its own; only the proc stays on the arena. -/
def callableProc (form : Form) (function : Nat) : Act Value := do
  let proc ← inArenaScope (newBridged form function)
  onHeap fun h => h.arenaPush proc
  return .obj proc

end Act

end GuestVM
