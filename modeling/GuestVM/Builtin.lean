import GuestVM.Value

/-! # Built-in classes

The classes a machine has from the start, in the order in which it makes them.  They take the first
slots of the heap in that order, so each has a fixed id, and they are never collected. -/
set_option autoImplicit false

namespace GuestVM

inductive Builtin where
  | basicObject | object | module | classClass | kernel
  | nilClass | trueClass | falseClass | integer | float | symbol | string | array | hash | range
  | proc
  | exception | standardError | runtimeError | typeError | argumentError | indexError | keyError
  | rangeError | nameError | noMethodError | frozenError | localJumpError | scriptError
  | notImplementedError | systemStackError
  deriving DecidableEq

namespace Builtin

/-- All built-in classes, in the order of their slots. -/
def all : List Builtin :=
  [.basicObject, .object, .module, .classClass, .kernel, .nilClass, .trueClass, .falseClass, .integer,
   .float, .symbol, .string, .array, .hash, .range, .proc, .exception, .standardError,
   .runtimeError, .typeError, .argumentError, .indexError, .keyError, .rangeError, .nameError,
   .noMethodError, .frozenError, .localJumpError, .scriptError, .notImplementedError,
   .systemStackError]

def id (b : Builtin) : ObjId := ⟨b.ctorIdx⟩

def value (b : Builtin) : Value := .obj b.id

def name : Builtin → String
  | .basicObject => "BasicObject"
  | .object => "Object"
  | .module => "Module"
  | .classClass => "Class"
  | .kernel => "Kernel"
  | .nilClass => "NilClass"
  | .trueClass => "TrueClass"
  | .falseClass => "FalseClass"
  | .integer => "Integer"
  | .float => "Float"
  | .symbol => "Symbol"
  | .string => "String"
  | .array => "Array"
  | .hash => "Hash"
  | .range => "Range"
  | .proc => "Proc"
  | .exception => "Exception"
  | .standardError => "StandardError"
  | .runtimeError => "RuntimeError"
  | .typeError => "TypeError"
  | .argumentError => "ArgumentError"
  | .indexError => "IndexError"
  | .keyError => "KeyError"
  | .rangeError => "RangeError"
  | .nameError => "NameError"
  | .noMethodError => "NoMethodError"
  | .frozenError => "FrozenError"
  | .localJumpError => "LocalJumpError"
  | .scriptError => "ScriptError"
  | .notImplementedError => "NotImplementedError"
  | .systemStackError => "SystemStackError"

/-- The superclass; `Kernel` is a module and has none. -/
def parent? : Builtin → Option Builtin
  | .basicObject | .kernel => none
  | .object => some .basicObject
  | .module => some .object
  | .classClass => some .module
  | .standardError | .scriptError | .systemStackError => some .exception
  | .runtimeError | .typeError | .argumentError | .indexError | .rangeError | .nameError
  | .localJumpError => some .standardError
  | .keyError => some .indexError
  | .noMethodError => some .nameError
  | .frozenError => some .runtimeError
  | .notImplementedError => some .scriptError
  | _ => some .object

/-- The order in which the built-in classes get their singleton classes. -/
def metaOrder : List Builtin :=
  [.basicObject, .object, .module, .classClass, .nilClass, .trueClass, .falseClass, .integer,
   .float, .symbol, .string, .array, .hash, .range, .proc, .exception, .standardError,
   .runtimeError, .typeError, .argumentError, .indexError, .rangeError, .keyError, .nameError,
   .noMethodError, .frozenError, .notImplementedError, .localJumpError, .scriptError,
   .systemStackError]

end Builtin

end GuestVM
