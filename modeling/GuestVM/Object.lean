import GuestVM.Object.HashTable
import GuestVM.Script
import GuestVM.Symbol

/-! # Heap objects

An object has a class, a frozen flag, instance variables and a body; the body makes it an array, a
class, a proc and so on.  `references` lists every id an object holds, so it says what keeps what
alive. -/
set_option autoImplicit false

namespace GuestVM

/-! ## Procs -/

structure ProcFlags where
  native : Bool := false
  strict : Bool := false
  envSet : Bool := false
  hasTarget : Bool := false
  noArg : Bool := false
  deriving DecidableEq, Inhabited

/-- The flags as the number that diagnostics show. -/
def ProcFlags.toNat (f : ProcFlags) : Nat :=
  f.native.toNat * 128 + f.strict.toNat * 256 + f.envSet.toNat * 1024 + f.hasTarget.toNat * 2048
    + f.noArg.toNat * 4096

/-- The code of a proc: a native one learns the receiver, a lexical one the arguments too. -/
inductive ProcBody where
  | native (code : Value → Script)
  | lexical (code : Value → List Value → Script)

structure ProcData where
  body : ProcBody
  flags : ProcFlags
  env : Option ObjId := none
  target : Option ObjId := none

/-! ## Classes -/

structure Method where
  proc : ObjId
  noArg : Bool
  deriving DecidableEq, Inhabited

inductive ClassKind where
  | plain
  | module
  /-- The singleton class of one value. -/
  | singleton (attached : Value)
  deriving DecidableEq, Inhabited

structure ClassData where
  name : Option Sym
  superclass : Option ObjId
  kind : ClassKind
  methods : SymMap Method := {}
  consts : SymMap Value := {}
  deriving DecidableEq, Inhabited

/-! ## Objects -/

structure RangeData where
  first : Value
  last : Value
  exclusive : Bool
  deriving DecidableEq, Inhabited

inductive Body where
  | object
  | class (c : ClassData)
  | proc (p : ProcData)
  | array (items : Array Value)
  | hash (t : HashTable)
  | string (bytes : List UInt8)
  | range (r : RangeData)
  | exception (message : String)
  | env (values : Array Value) (isShared : Bool)
  | istruct (word : Int64)

structure Object where
  cls : ObjId
  frozen : Bool := false
  ivars : SymMap Value := {}
  body : Body

namespace Object

def tag (o : Object) : ValueType :=
  match o.body with
  | .object => .object
  | .class c =>
    match c.kind with
    | .plain => .plainClass
    | .module => .module
    | .singleton _ => .singleton
  | .proc _ => .proc
  | .array _ => .array
  | .hash _ => .hash
  | .string _ => .string
  | .range _ => .range
  | .exception _ => .exception
  | .env _ _ => .env
  | .istruct _ => .istruct

end Object

def ClassData.references (c : ClassData) : List ObjId :=
  c.superclass.toList ++ c.methods.values.map (·.proc) ++ Value.objects c.consts.values
    ++ match c.kind with
      | .singleton attached => Value.objects [attached]
      | _ => []

def Body.references : Body → List ObjId
  | .object | .string _ | .exception _ | .istruct _ => []
  | .class c => c.references
  | .proc p => p.env.toList ++ p.target.toList
  | .array items => Value.objects items.toList
  | .hash t => Value.objects (t.entries.toList.flatMap fun e => [e.1, e.2])
  | .range r => Value.objects [r.first, r.last]
  | .env values _ => Value.objects values.toList

/-- Every id an object holds: its class, its variables, and what is in its body. -/
def Object.references (o : Object) : List ObjId :=
  o.cls :: Value.objects o.ivars.values ++ o.body.references

end GuestVM
