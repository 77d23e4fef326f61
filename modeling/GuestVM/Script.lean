import GuestVM.Script.Request

/-! # Scripts

Code that runs inside a machine, native procs, lexical procs and host callables alike, as a tree: a
script asks one request, or runs other code, and goes on with the answer.  What it computes between
requests is an ordinary function, so any terminating host code over the public operations is a
script, and nothing else is: a script cannot touch a machine except through requests.

A script ends in an `Outcome`: a value, an exception of the guest on its way up, or a failure of
host code.  Scripts are built with `Script.bind`; `Script.arenaScope` restores the arena after a
body. -/
set_option autoImplicit false

namespace GuestVM

inductive Outcome where
  | value (v : Value)
  | raised (e : Raised)
  | failed (e : HostError)
  deriving DecidableEq

def Outcome.ofExcept : Except Raised Value → Outcome
  | .ok v => .value v
  | .error e => .raised e

structure CallContext where
  index : Nat
  receiver : Value
  function : Nat
  deriving DecidableEq, Inhabited

/-- How arguments reach a host callable: a `bound` one reads them from the running call, a `free`
one gets them in one array. -/
inductive Form where
  | bound | free
  deriving DecidableEq

/-- How a host callable hands on an exception it did not handle: as its result, or as an error to
be raised anew. -/
inductive Discipline where
  | direct | fallible
  deriving DecidableEq

inductive Script where
  | done (o : Outcome)
  | guest {a : Answer} (r : GuestRequest a) (next : a.Carrier → Script)
  | bridge {a : Answer} (r : BridgeRequest a) (next : a.Carrier → Script)
  | memo {a : Answer} (r : MemoRequest a) (next : a.Carrier → Script)
  | call (receiver : Value) (mid : Sym) (args : List Value) (block : Value)
      (next : Except Raised Value → Script)
  | callProc (proc self : Value) (args : List Value) (next : Except Raised Value → Script)
  /-- Runs a body and catches what it raises. -/
  | protect (body : Script) (next : Except Raised Value → Script)
  | newNative (body : Value → Script) (next : ObjId → Script)
  /-- Makes a proc that stands for a block of guest code. -/
  | newLexical (body : Value → List Value → Script) (next : ObjId → Script)
  | register (index : Nat) (form : Form) (discipline : Discipline)
      (body : CallContext → Value → Script) (aspec : Aspec) (next : Nat → Script)
  /-- Runs a registered callable; a free one gets the array `args`. -/
  | hostCall (form : Form) (index : Nat) (receiver : Value) (function : Nat) (args : Value)
      (next : Value → Script)
  /-- Visits the entries of a hash, each visit told how many came before it; it ends with its
  status. -/
  | walkHash (route : Route) (hash : Value) (visit : Nat → Value → Value → Script)
      (next : Except Raised Nat → Script)
  /-- Visits the live objects; `next` learns which were visited. -/
  | walkHeap (route : Route) (visit : Nat → ObjId → Script) (next : List ObjId → Script)

namespace Script

def bind (s : Script) (k : Outcome → Script) : Script :=
  match s with
  | .done o => k o
  | .guest r next => .guest r fun x => (next x).bind k
  | .bridge r next => .bridge r fun x => (next x).bind k
  | .memo r next => .memo r fun x => (next x).bind k
  | .call receiver mid args block next => .call receiver mid args block fun x => (next x).bind k
  | .callProc proc self args next => .callProc proc self args fun x => (next x).bind k
  | .protect body next => .protect body fun x => (next x).bind k
  | .newNative body next => .newNative body fun x => (next x).bind k
  | .newLexical body next => .newLexical body fun x => (next x).bind k
  | .register index form discipline body aspec next =>
    .register index form discipline body aspec fun x => (next x).bind k
  | .hostCall form index receiver function args next =>
    .hostCall form index receiver function args fun x => (next x).bind k
  | .walkHash route hash visit next => .walkHash route hash visit fun x => (next x).bind k
  | .walkHeap route visit next => .walkHeap route visit fun x => (next x).bind k

def ret (v : Value) : Script := .done (.value v)

def ofResult (r : Except Raised Value) : Script := .done (.ofExcept r)

/-- A script as guest code sees it: a failure of host code becomes a RuntimeError with its text. -/
def guestly (s : Script) : Script :=
  s.bind fun
    | .failed e => .guest (.raise Builtin.runtimeError.id e.text) fun r => .done (.raised r)
    | o => .done o

def send (receiver : Value) (name : String) (args : List Value) (block : Value)
    (next : Except Raised Value → Script) : Script :=
  .guest (.intern name) fun mid => .call receiver mid args block next

/-- Calls a method by name from host code and catches what it raises. -/
def sendCaught (receiver : Value) (name : String) (args : List Value)
    (next : Except Raised Value → Script) : Script :=
  .protect (send receiver name args .nil ofResult) next

/-- Runs a body and then cuts the arena back to where it was; `next` learns the mark and the
length of the arena at the end of the body. -/
def arenaScope (body : Script) (next : Nat → Nat → Outcome → Script) : Script :=
  .guest .arenaSave fun mark =>
    body.guestly.bind fun o =>
      .guest .arenaSave fun inside =>
        .guest (.arenaRestore mark) fun _ => next mark inside o

end Script

end GuestVM
