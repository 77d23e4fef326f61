import GuestVM.Aspec
import GuestVM.Builtin
import GuestVM.Failure
import GuestVM.HostType
import GuestVM.Portrait
import GuestVM.Walk

/-! # Requests

The questions and commands that code running inside a machine may put to it, as data.  A request
carries its arguments and is indexed by the form of its answer; `Answer.Carrier` gives the type.
Answers that may be refused by the guest are an `attempt`: a raised exception or a result.

* `GuestRequest` is answered by the machine alone,
* `BridgeRequest` by the machine and the tables that link it to host code,
* `MemoRequest` by the host's own memory, which the machine never sees.

Calls, protected regions and walks run code and are not requests; see `GuestVM.Script`. -/
set_option autoImplicit false

namespace GuestVM

/-! ## Answers -/

inductive Answer where
  | unit | bool | nat | int | text | bytes | value | id | sym | tag | raised | portrait | document
  | handle | aspec
  | host (t : HostType)
  | option (a : Answer)
  | list (a : Answer)
  | pair (a b : Answer)
  | attempt (a : Answer)
  | conversion (t : HostType)

def Answer.Carrier : Answer → Type
  | .unit => Unit
  | .bool => Bool
  | .nat => Nat
  | .int => Int64
  | .text => String
  | .bytes => List UInt8
  | .value => Value
  | .id => ObjId
  | .sym => Sym
  | .tag => ValueType
  | .raised => Raised
  | .portrait => Portrait
  | .document => Document
  | .handle => Handle
  | .aspec => Aspec
  | .host t => t.Carrier
  | .option a => Option a.Carrier
  | .list a => List a.Carrier
  | .pair a b => a.Carrier × b.Carrier
  | .attempt a => Except Raised a.Carrier
  | .conversion t => Except HostError t.Carrier

/-! ## Requests to the machine -/

/-- An edit of an object through a reference that the host was given to it.  Such a reference allows
any edit and these are only some, so nothing is claimed of scripts that edit: an edit is no move of a
run. -/
inductive Edit where
  | thaw
  | toObject
  | toIStruct (word : Int64)
  | toString (bytes : List UInt8)
  | toArray
  | toHash
  deriving DecidableEq

inductive GuestRequest : Answer → Type where
  -- values
  | typeOf (v : Value) : GuestRequest .tag
  | inspect (v : Value) : GuestRequest .text
  | portrait (v : Value) (depth : Nat) : GuestRequest .portrait
  | intern (name : String) : GuestRequest .sym
  | symbolName (s : Sym) : GuestRequest .text
  | summary : GuestRequest .text
  -- classes and modules
  | defineClass (outer : ObjId) (name : String) (superclass : Option ObjId) :
      GuestRequest (.attempt .id)
  | defineModule (outer : ObjId) (name : String) : GuestRequest (.attempt .id)
  | classGet (name : String) : GuestRequest (.option .id)
  | classOf (v : Value) : GuestRequest .id
  | realClassOf (v : Value) : GuestRequest .id
  | singletonClass (v : Value) : GuestRequest (.attempt .id)
  | expectClass (v : Value) : GuestRequest (.attempt .id)
  | expectType (v : Value) (t : ValueType) : GuestRequest (.attempt .id)
  | superclass (c : ObjId) : GuestRequest (.option .id)
  | className (c : ObjId) : GuestRequest .text
  | isKindOf (v : Value) (c : ObjId) : GuestRequest .bool
  -- methods, constants, variables
  | defineMethod (c : ObjId) (mid : Sym) (proc : ObjId) (noArg : Bool) :
      GuestRequest (.attempt .unit)
  | undefMethod (c : ObjId) (mid : Sym) : GuestRequest (.attempt .unit)
  | aliasMethod (c : ObjId) (new old : Sym) : GuestRequest (.attempt .unit)
  | findMethod (c : ObjId) (mid : Sym) : GuestRequest (.option (.pair .id .bool))
  | respondTo (v : Value) (name : String) : GuestRequest .bool
  | methodNames (c : ObjId) : GuestRequest (.list .text)
  | constSet (c : ObjId) (name : String) (v : Value) : GuestRequest (.attempt .unit)
  | constGet (c : ObjId) (name : String) : GuestRequest (.attempt .value)
  | constDefined (c : ObjId) (name : String) : GuestRequest .bool
  | globalSet (name : String) (v : Value) : GuestRequest .unit
  | globalGet (name : String) : GuestRequest .value
  | ivarSet (target : Value) (name : String) (v : Value) : GuestRequest (.attempt .unit)
  | ivarGet (target : Value) (name : String) : GuestRequest .value
  -- procs and environments
  | envNew (values : List Value) : GuestRequest .id
  | setEnv (proc env : ObjId) : GuestRequest .unit
  | procFlags (proc : ObjId) : GuestRequest (.option .nat)
  | procIsNative (proc : ObjId) : GuestRequest .bool
  | procEnv (proc : ObjId) : GuestRequest (.option .id)
  | envValues (env : ObjId) : GuestRequest (.option (.list .value))
  | envShared (env : ObjId) : GuestRequest (.option .bool)
  | envGet (proc : ObjId) (index : Int64) : GuestRequest (.attempt .value)
  | envSet (proc : ObjId) (index : Int64) (v : Value) : GuestRequest (.attempt .unit)
  | ownEnvGet (index : Int64) : GuestRequest (.attempt .value)
  -- the running call
  | args : GuestRequest (.list .value)
  | argc : GuestRequest .nat
  | arg (i : Nat) : GuestRequest .value
  | block : GuestRequest .value
  | methodName : GuestRequest (.option .sym)
  | currentProc : GuestRequest (.option .id)
  | callDepth : GuestRequest .nat
  | protectDepth : GuestRequest .nat
  -- exceptions
  | exceptionNew (c : ObjId) (message : String) : GuestRequest .value
  | exceptionRaise (v : Value) : GuestRequest .raised
  | raise (c : ObjId) (message : String) : GuestRequest .raised
  | frozenError (v : Value) : GuestRequest .raised
  | checkFrozen (v : Value) : GuestRequest (.attempt .unit)
  | currentException : GuestRequest (.option .value)
  | clearException : GuestRequest .unit
  | exceptionMessage (v : Value) : GuestRequest .text
  -- objects
  | objectNew (c : ObjId) : GuestRequest (.attempt .value)
  | istructNew (c : ObjId) (word : Int64) : GuestRequest .value
  | istructGet (v : Value) : GuestRequest (.option .int)
  | freeze (v : Value) : GuestRequest .unit
  | isFrozen (v : Value) : GuestRequest .bool
  | edit (id : ObjId) (e : Edit) : GuestRequest .bool
  -- arrays
  | arrayNew (items : List Value) : GuestRequest .value
  | arrayLen (a : Value) : GuestRequest (.attempt .nat)
  | arrayGet (a : Value) (index : Int64) : GuestRequest (.attempt .value)
  | arraySet (a : Value) (index : Int64) (v : Value) : GuestRequest (.attempt .unit)
  | arrayPush (a v : Value) : GuestRequest (.attempt .unit)
  | arrayItems (a : Value) : GuestRequest (.attempt (.list .value))
  -- strings
  | stringNew (bytes : List UInt8) : GuestRequest .value
  | stringBytes (s : Value) : GuestRequest (.attempt .bytes)
  | stringText (s : Value) : GuestRequest (.attempt .text)
  | stringLen (s : Value) : GuestRequest (.attempt .nat)
  | stringAppend (s : Value) (tail : String) : GuestRequest (.attempt .unit)
  -- hashes
  | hashNew : GuestRequest .value
  | hashSet (h key v : Value) : GuestRequest (.attempt .unit)
  | hashGet (h key : Value) : GuestRequest (.attempt (.option .value))
  | hashDelete (h key : Value) : GuestRequest (.attempt (.option .value))
  | hashLen (h : Value) : GuestRequest (.attempt .nat)
  | hashEntries (h : Value) : GuestRequest (.attempt (.list (.pair .value .value)))
  | hashKeys (h : Value) : GuestRequest (.attempt (.list .value))
  | hashValues (h : Value) : GuestRequest (.attempt (.list .value))
  | hashClear (h : Value) : GuestRequest (.attempt .unit)
  -- ranges
  | rangeNew (first last : Value) (exclusive : Bool) : GuestRequest .value
  | rangeParts (r : Value) : GuestRequest (.attempt (.pair .value (.pair .value .bool)))
  | rangeSpan (r : Value) (len : Int64) (trunc : Bool) : GuestRequest (.attempt (.pair .int .int))
  -- the collector
  | arenaSave : GuestRequest .nat
  | arenaRestore (mark : Nat) : GuestRequest .unit
  | arenaPush (id : ObjId) : GuestRequest .unit
  | collect : GuestRequest .nat
  | setCollecting (on : Bool) : GuestRequest .bool
  | isDead (id : ObjId) : GuestRequest .bool
  | liveCount : GuestRequest .nat
  | collections : GuestRequest .nat

/-! ## Requests to the bridge -/

inductive Placement where
  | method (c : ObjId)
  /-- On the singleton class of a class or module. -/
  | classMethod (c : ObjId)
  /-- On the singleton class of any object. -/
  | singletonMethod (v : Value)
  | moduleFunction (c : ObjId)
  deriving DecidableEq

inductive BridgeRequest : Answer → Type where
  -- environments of procs
  | attachEnv (proc : Value) (values : List Value) : BridgeRequest (.attempt .unit)
  | envGet (proc : Value) (index : Int64) : BridgeRequest (.attempt .value)
  | envSet (proc : Value) (index : Int64) (v : Value) : BridgeRequest (.attempt .unit)
  | envLen (proc : Value) : BridgeRequest .nat
  -- exceptions
  | raise (c : ObjId) (message : String) : BridgeRequest .value
  | raiseError (e : HostError) : BridgeRequest .value
  | raiseIfLive (v : Value) : BridgeRequest (.attempt .value)
  -- methods of host code
  | defineCallable (place : Placement) (name : String) (function : Nat) (aspec : Aspec) :
      BridgeRequest (.attempt .id)
  | callableProc (function : Nat) : BridgeRequest (.attempt .value)
  | lookup (index function : Nat) : BridgeRequest (.option (.pair .nat (.pair .aspec .bool)))
  | unregister (index function : Nat) : BridgeRequest .bool
  | callbackCount (index : Nat) : BridgeRequest .nat
  | dropTable (index : Nat) : BridgeRequest .unit
  -- the registry
  | registerInstance : BridgeRequest .nat
  | unregisterInstance : BridgeRequest (.option .nat)
  | currentIndex : BridgeRequest .nat
  | liveInstances : BridgeRequest .nat
  | indexOf (h : Handle) : BridgeRequest .nat
  | ownHandle : BridgeRequest .handle
  -- conversions
  | intoGuest (t : HostType) (x : t.Carrier) : BridgeRequest .value
  | fromGuest (t : HostType) (v : Value) : BridgeRequest (.conversion t)
  -- typed handles
  | itemOr (a : ObjId) (index : Int64) (default : Value) : BridgeRequest (.attempt .value)
  | fetch (h : ObjId) (key : Value) : BridgeRequest (.attempt .value)

/-! ## Requests to the host's memory -/

inductive MemoRequest : Answer → Type where
  | note (entry : Document) : MemoRequest .unit
  | store (name : String) (v : Value) : MemoRequest .unit
  | load (name : String) : MemoRequest (.option .value)
  /-- Whether a hook is live, which calls by its address depend on. -/
  | isHooked (kind : HookKind) (address : Nat) : MemoRequest .bool

end GuestVM
