import GuestVM.Machine.Closures

/-! # Calls

A call by name finds the method on the superclass chain of the receiver's class and checks the
number of arguments; a call of a proc takes the proc as it is.  Either then enters the proc: a frame
is pushed, unless the stack is full, and the proc's code is what runs next.  When the code has ended
the stack is cut back to where it was. -/
set_option autoImplicit false

namespace GuestVM

def ProcBody.script (b : ProcBody) (receiver : Value) (args : List Value) : Script :=
  match b with
  | .native code => code receiver
  | .lexical code => code receiver args

namespace Machine

def depth (m : Machine) : Nat := m.frames.length

def unwound (m : Machine) (depth : Nat) : Machine :=
  { m with frames := m.frames.drop (m.frames.length - depth) }

/-! ## The running call -/

def args (m : Machine) : List Value := (m.frames.head?.map (·.args)).getD []

/-- An argument of the running call, `nil` where there is none. -/
def arg (m : Machine) (i : Nat) : Value := m.args[i]?.getD .nil

def block (m : Machine) : Value := (m.frames.head?.map (·.block)).getD .nil

def methodName (m : Machine) : Option Sym := m.frames.head?.bind (·.mid)

def currentProc (m : Machine) : Option ObjId := m.frames.head?.map (·.proc)

end Machine

namespace Act

/-- Pushes a frame and gives the code that runs in it. -/
def enter (frame : Frame) : Act Script := do
  let m ← get
  if m.config.maxCallDepth.toNat ≤ m.depth then fail .systemStackError "stack level too deep"
  match m.procData? frame.proc with
  | some p =>
    set { m with frames := frame :: m.frames }
    return p.body.script frame.receiver frame.args
  | none => fail .typeError "method body is not a Proc"

def enterMethod (receiver : Value) (mid : Sym) (args : List Value) (block : Value) :
    Act Script := do
  let m ← get
  let limit := m.config.funcallArgcMax.toNat
  if limit < args.length then
    fail .argumentError ("Too long arguments. (limit=" ++ toString limit ++ ")")
  match ← ofOption (m.findMethod? (m.classOf receiver) mid) with
  | none =>
    let name ← ofOption (m.realClassName receiver)
    fail .noMethodError ("undefined method '" ++ m.symName mid ++ "' for " ++ name)
  | some method =>
    if method.noArg ∧ !args.isEmpty then
      fail .argumentError
        ("wrong number of arguments (given " ++ toString args.length ++ ", expected 0)")
    enter { mid := some mid, proc := method.proc, receiver := receiver, args := args,
            block := block }

def enterProc (proc self : Value) (args : List Value) : Act Script := do
  let id ← expectProc proc
  enter { mid := none, proc := id, receiver := self, args := args, block := .nil }

end Act

end GuestVM
