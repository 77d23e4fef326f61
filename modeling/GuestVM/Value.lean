import GuestVM.Number.Binary64
import GuestVM.Text.Quoted

/-! # Values of the guest

A value is an immediate or the id of a heap object.  Ids and symbols are numbers that mean something
only in the machine that gave them out.  `ValueType` is the tag that type checks name, and
`Value.same` the comparison of two values: identity for objects, numeric for floats. -/
set_option autoImplicit false

namespace GuestVM

structure ObjId where
  slot : Nat
  deriving DecidableEq, Hashable, Inhabited

/-- An id as messages show it. -/
def ObjId.text (id : ObjId) : String := "0x" ++ Text.hexPadded 6 id.slot

structure Sym where
  index : Nat
  deriving DecidableEq, Hashable, Inhabited

inductive Value where
  | nil
  | bool (b : Bool)
  | int (n : Int64)
  | float (x : Binary64)
  | sym (s : Sym)
  | obj (id : ObjId)
  | undefined
  deriving DecidableEq, Inhabited

namespace Value

def isNil (v : Value) : Bool := v == .nil

/-- Only `nil` and `false` count as false. -/
def truthy : Value → Bool
  | .nil | .bool false => false
  | _ => true

def asInt : Value → Option Int64
  | .int n => some n
  | _ => none

/-- Floats as they are, integers rounded to the nearest float. -/
def asFloat : Value → Option Binary64
  | .float x => some x
  | .int n => some (Binary64.ofInt n.toInt)
  | _ => none

def asObj : Value → Option ObjId
  | .obj id => some id
  | _ => none

def asSym : Value → Option Sym
  | .sym s => some s
  | _ => none

/-- Immediates have no heap identity. -/
def isImmediate (v : Value) : Bool := v.asObj.isNone

/-- Objects are the same when their ids are, floats when they are numerically equal. -/
def same : Value → Value → Bool
  | .float x, .float y => x.same y
  | v, w => v == w

def objects (vs : List Value) : List ObjId := vs.filterMap asObj

end Value

/-! ## Type tags -/

inductive ValueType where
  | false | true | integer | float | symbol | undefined | object | plainClass | module | singleton
  | proc | array | hash | string | range | exception | env | istruct
  deriving DecidableEq, Inhabited

namespace ValueType

/-- All tags, in their order. -/
def all : List ValueType :=
  [.false, .true, .integer, .float, .symbol, .undefined, .object, .plainClass, .module, .singleton,
   .proc, .array, .hash, .string, .range, .exception, .env, .istruct]

def name : ValueType → String
  | .false => "False"
  | .true => "True"
  | .integer => "Integer"
  | .float => "Float"
  | .symbol => "Symbol"
  | .undefined => "Undef"
  | .object => "Object"
  | .plainClass => "Class"
  | .module => "Module"
  | .singleton => "SClass"
  | .proc => "Proc"
  | .array => "Array"
  | .hash => "Hash"
  | .string => "String"
  | .range => "Range"
  | .exception => "Exception"
  | .env => "Env"
  | .istruct => "IStruct"

/-- Classes, modules and singleton classes hold methods and constants. -/
def isClassLike : ValueType → Bool
  | .plainClass | .module | .singleton => Bool.true
  | _ => Bool.false

end ValueType

/-! ## Handles of machines -/

/-- The identity of an opened machine; handles are never given out twice. -/
structure Handle where
  raw : UInt64
  deriving DecidableEq, Hashable, Inhabited

def Handle.text (h : Handle) : String := "VmHandle(0x" ++ Text.hexDigits h.raw.toNat ++ ")"

end GuestVM
