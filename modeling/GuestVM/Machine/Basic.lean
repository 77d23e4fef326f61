import GuestVM.Config
import GuestVM.Heap.Collect

/-! # Machines

A machine is a heap, the interned names, the global variables, the stack of running calls, and the
current exception.  Operations that may raise are actions: state transformers that end with a
result, with an exception on its way up, or not at all.  The last happens only where a value has to
be written out that contains itself.

This module holds the types and the questions about a value that need no more than its object. -/
set_option autoImplicit false

namespace GuestVM

structure Frame where
  mid : Option Sym
  proc : ObjId
  receiver : Value
  args : List Value
  block : Value
  deriving DecidableEq, Inhabited

def Frame.references (f : Frame) : List ObjId :=
  f.proc :: Value.objects (f.receiver :: f.block :: f.args)

structure Machine where
  handle : Handle
  config : Config := {}
  heap : Heap := {}
  symbols : SymbolTable := {}
  top : ObjId := ⟨0⟩
  globals : SymMap Value := {}
  exc : Option ObjId := none
  /-- The running calls, innermost first. -/
  frames : List Frame := []
  protectDepth : Nat := 0

/-! ## Actions -/

/-- Why an action has no result. -/
inductive Halt where
  | raised (e : Raised)
  /-- The action goes on for ever. -/
  | endless
  deriving DecidableEq

abbrev Act (α : Type) := ExceptT Halt (StateM Machine) α

namespace Act

/-- Reads something that need not end. -/
def ofOption {α : Type} : Option α → Act α
  | some a => pure a
  | none => throw .endless

def throwing {α : Type} (make : Act Raised) : Act α := do
  throw (.raised (← make))

def onHeap (f : Heap → Heap) : Act Unit := modify fun m => { m with heap := f m.heap }

def alloc (o : Object) : Act ObjId := do
  let m ← get
  let (id, heap) := m.heap.alloc o
  set { m with heap := heap }
  return id

def intern (name : String) : Act Sym := do
  let m ← get
  let (s, symbols) := m.symbols.intern name
  set { m with symbols := symbols }
  return s

end Act

/-! ## Questions about values -/

namespace Machine

def symName (m : Machine) (s : Sym) : String := m.symbols.name s

def object? (m : Machine) (id : ObjId) : Option Object := m.heap.get? id

def body? (m : Machine) (v : Value) : Option Body := do
  return (← m.object? (← v.asObj)).body

def typeOf (m : Machine) : Value → ValueType
  | .nil | .bool false => .false
  | .bool true => .true
  | .int _ => .integer
  | .float _ => .float
  | .sym _ => .symbol
  | .undefined => .undefined
  | .obj id => ((m.object? id).map (·.tag)).getD .undefined

/-- Immediates count as frozen, and so do dead objects. -/
def isFrozen (m : Machine) : Value → Bool
  | .obj id => ((m.object? id).map (·.frozen)).getD true
  | _ => true

/-- The message of an exception; other values have none. -/
def exceptionMessage (m : Machine) (v : Value) : String :=
  match m.body? v with
  | some (.exception message) => message
  | _ => ""

def istructGet (m : Machine) (v : Value) : Option Int64 :=
  match m.body? v with
  | some (.istruct word) => some word
  | _ => none

def currentException (m : Machine) : Option Value := m.exc.map .obj

end Machine

/-- Changes the body of an object, if it is live. -/
def Act.setBody (id : ObjId) (b : Body) : Act Unit :=
  Act.onHeap fun h => h.modify id fun o => { o with body := b }

/-- Freezes an object; other values are frozen already. -/
def Act.freeze (v : Value) : Act Unit :=
  match v with
  | .obj id => Act.onHeap fun h => h.modify id fun o => { o with frozen := true }
  | _ => pure ()

end GuestVM
