import GuestVM.Machine.Raise

/-! # Host errors as guest exceptions

Host code hands an exception to the guest by making it current and returning the exception object.
A returned exception is raised exactly when it is the current one; any other is an ordinary value.

An error of host code surfaces as the class that its typed cause names.  Without one, a text of the
form `ClassName: message` names the class if that class is an exception class, and otherwise the
error is a StandardError with the whole text. -/
set_option autoImplicit false

namespace GuestVM

/-- The built-in class a kind of error stands for; a named one has none. -/
def RaiseKind.builtin? : RaiseKind → Option Builtin
  | .standard => some .standardError
  | .runtime => some .runtimeError
  | .type => some .typeError
  | .argument => some .argumentError
  | .index => some .indexError
  | .key => some .keyError
  | .range => some .rangeError
  | .name => some .nameError
  | .noMethod => some .noMethodError
  | .frozen => some .frozenError
  | .notImplemented => some .notImplementedError
  | .named _ => none

/-- Splits a text at its first colon that a blank follows. -/
def splitAtColon : List Char → Option (List Char × List Char)
  | [] => none
  | ':' :: ' ' :: rest => some ([], rest)
  | c :: rest => (splitAtColon rest).map fun (before, after) => (c :: before, after)

namespace Machine

/-- The class bound to the name that an error asks for, StandardError where there is none. -/
def classNamed (m : Machine) (name : String) : ObjId :=
  (m.classGet name).getD Builtin.standardError.id

def kindClass (m : Machine) (k : RaiseKind) : ObjId :=
  match k, k.builtin? with
  | .named name, _ => m.classNamed name
  | _, some b => b.id
  | _, none => Builtin.standardError.id

/-- The class and message that a text without typed cause stands for. -/
def readError? (m : Machine) (text : String) : Option (ObjId × String) :=
  match splitAtColon text.toList with
  | some (name, message) =>
    match m.classGet (String.ofList name) with
    | some c =>
      (m.descendsFrom? c Builtin.exception.id).map fun isException =>
        if isException then (c, String.ofList message) else (Builtin.standardError.id, text)
    | none => some (Builtin.standardError.id, text)
  | none => some (Builtin.standardError.id, text)

/-- The class and message that an error surfaces with. -/
def surfacing? (m : Machine) (e : HostError) : Option (ObjId × String) :=
  match e.cause with
  | .raise r => some (m.kindClass r.kind, r.message)
  | .raised r => some (m.classNamed r.className, r.message)
  | .plain _ => m.readError? e.text

end Machine

namespace Act

/-- Makes an exception current and gives it as a value; a class that is no exception class counts
as `Exception`. -/
def hostRaise (c : ObjId) (message : String) : Act Value := do
  let isException ← ofOption ((← get).descendsFrom? c Builtin.exception.id)
  return (← raise (if isException then c else Builtin.exception.id) message).value

def raiseError (e : HostError) : Act Value := do
  let (c, message) ← ofOption ((← get).surfacing? e)
  hostRaise c message

/-- Raises a value that is the current exception and passes on any other. -/
def raiseIfLive (v : Value) : Act Value := do
  let m ← get
  if m.typeOf v = .exception ∧ m.currentException = some v then throwing (exceptionRaise v)
  return v

end Act

end GuestVM
