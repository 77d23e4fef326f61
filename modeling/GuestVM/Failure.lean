import GuestVM.Value

/-! # Failures

What comes out of a call that did not succeed.  `Raised` is an exception of the guest on its way
up: the exception object, and its class name and message as they were when it was raised.
`HostError` is an error of host code: a cause, and the contexts wrapped around it.  A cause may be
a `RaiseError`, which names the exception class it wants to surface as, a `Raised` that host code
passed on, or plain text. -/
set_option autoImplicit false

namespace GuestVM

structure Raised where
  value : Value
  className : String
  message : String
  deriving DecidableEq, Inhabited

namespace Raised

def text (e : Raised) : String :=
  if e.message.isEmpty then e.className else e.className ++ ": " ++ e.message

def isA (e : Raised) (name : String) : Bool := e.className == name

end Raised

/-- The exception class a host error asks for. -/
inductive RaiseKind where
  | standard | runtime | type | argument | index | key | range | name | noMethod | frozen
  | notImplemented
  /-- The class bound to a name when the error surfaces. -/
  | named (className : String)
  deriving DecidableEq

/-- The kind of a name; kinds named by their class have none. -/
def RaiseKind.ofName? : String → Option RaiseKind
  | "standard" => some .standard
  | "runtime" => some .runtime
  | "type" => some .type
  | "argument" => some .argument
  | "index" => some .index
  | "key" => some .key
  | "range" => some .range
  | "name" => some .name
  | "no_method" => some .noMethod
  | "frozen" => some .frozen
  | "not_implemented" => some .notImplemented
  | _ => none

structure RaiseError where
  kind : RaiseKind
  message : String
  deriving DecidableEq

inductive Cause where
  | raise (e : RaiseError)
  | raised (e : Raised)
  | plain (text : String)
  deriving DecidableEq

def Cause.text : Cause → String
  | .raise e => e.message
  | .raised e => e.text
  | .plain t => t

/-- A cause under contexts, the outermost first. -/
structure HostError where
  contexts : List String := []
  cause : Cause
  deriving DecidableEq

namespace HostError

def plain (text : String) : HostError := { cause := .plain text }

def ofRaised (e : Raised) : HostError := { cause := .raised e }

def context (e : HostError) (c : String) : HostError := { e with contexts := c :: e.contexts }

/-- The texts of the chain, outermost first. -/
def chain (e : HostError) : List String := e.contexts ++ [e.cause.text]

def text (e : HostError) : String := e.contexts.headD e.cause.text

end HostError

end GuestVM
