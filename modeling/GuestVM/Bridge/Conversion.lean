import GuestVM.HostType
import GuestVM.Machine.Arrays
import GuestVM.Machine.Hashes

/-! # Conversions

Host data becomes a guest value with `Act.intoGuest` and is read back with `Machine.fromGuest`.
Going in nothing can fail: lists become arrays, documents arrays and hashes, an integer of a
document too large for a word becomes the nearest float, and a size becomes the word with the same
bits.  Coming out a value has to have the type that is asked for.  A document is read through every
array and hash of a value, so the reading of a value that contains itself has no end; nesting through
distinct objects is no deeper than the heap has slots. -/
set_option autoImplicit false

namespace GuestVM

/-! ## Into the guest -/

namespace Act

def textValue (s : String) : Act Value := stringNew (Text.encode s)

def integerValue (n : Int) : Value :=
  match Word.checked n with
  | some w => .int w
  | none => .float (Binary64.ofInt n)

mutual

def documentValue : Document → Act Value
  | .null => return .nil
  | .bool b => return .bool b
  | .int n => return integerValue n
  | .float x => return .float x
  | .str s => textValue s
  | .arr items => do arrayNew (← documentValues items)
  | .obj members => do
    let h ← hashNew
    putMembers h members
    return h

def documentValues : List Document → Act (List Value)
  | [] => return []
  | d :: rest => do return (← documentValue d) :: (← documentValues rest)

def putMembers (h : Value) : List (String × Document) → Act Unit
  | [] => return ()
  | (name, d) :: rest => do
    let key ← textValue name
    let v ← documentValue d
    let _ ← attempt (hashSet h key v)
    putMembers h rest

end

def intoGuest : (t : HostType) → t.Carrier → Act Value
  | .unit, _ => return .nil
  | .bool, b => return .bool b
  | .int64, n => return .int n
  | .int32, n => return .int n.toInt64
  | .size, n => return .int n.toInt64
  | .float, x => return .float x
  | .text, s => textValue s
  | .option _, none => return .nil
  | .option t, some x => intoGuest t x
  | .list t, xs => do arrayNew (← List.mapM (intoGuest t) xs)
  | .document, d => documentValue d
  | .value, v => return v

end Act

/-! ## Out of the guest -/

/-- A reading may fail with an error, or not end. -/
abbrev Reading (α : Type) := ExceptT HostError Option α

namespace Machine

def misread {α : Type} (text : String) : Reading α := throw (.plain text)

def mismatch {α : Type} (m : Machine) (expected : String) (v : Value) : Reading α := do
  let name ← (m.realClassName v : Option String)
  misread ("expected " ++ expected ++ ", got " ++ name)

def readInt (m : Machine) (v : Value) : Reading Int64 :=
  match v.asInt with
  | some n => pure n
  | none => m.mismatch "Integer" v

/-- Fails because an integer does not fit. -/
def outOfRange {α : Type} (n : Int64) (type : String) : Reading α :=
  misread ("integer " ++ toString n.toInt ++ " out of range for " ++ type)

def readInt32 (m : Machine) (v : Value) : Reading Int32 := do
  let n ← m.readInt v
  if n.toInt32.toInt64 = n then return n.toInt32 else outOfRange n "i32"

def readSize (m : Machine) (v : Value) : Reading UInt64 := do
  let n ← m.readInt v
  if 0 ≤ n then return n.toUInt64 else outOfRange n "usize"

def readFloat (m : Machine) (v : Value) : Reading Binary64 :=
  match v.asFloat with
  | some x => pure x
  | none => m.mismatch "Float" v

def readText? (m : Machine) (v : Value) : Option String :=
  match v with
  | .sym s => some (m.symName s)
  | .obj _ =>
    match m.body? v with
    | some (.string bytes) => some (Text.decode bytes)
    | _ => none
  | _ => none

def readString (m : Machine) (v : Value) : Reading String :=
  match m.readText? v with
  | some s => pure s
  | none => m.mismatch "String" v

def memberName (m : Machine) (key : Value) : Reading String :=
  match m.readText? key, key with
  | some s, _ => pure s
  | none, .int n => pure (toString n.toInt)
  | none, _ =>
    misread ("hash key of type " ++ (m.typeOf key).name ++ " cannot be a JSON object key")

/-- The members read from the entries of a hash; of two with one name the later counts. -/
def membersOf (m : Machine) (read : Value → Reading Document) :
    List (Value × Value) → Members → Reading Members
  | [], members => pure members
  | (key, v) :: rest, members => do
    let name ← m.memberName key
    let d ← read v
    m.membersOf read rest (members.insert name d)

/-- A value nested less than `n` levels deep as a document. -/
def documentWithin (m : Machine) : Nat → Value → Reading Document
  | 0, _ => ExceptT.mk none
  | n + 1, v =>
    match v with
    | .nil => pure .null
    | .bool b => pure (.bool b)
    | .int i => pure (.int i.toInt)
    | .float x =>
      if x.isFinite then pure (.float x)
      else misread ("float " ++ x.render ++ " has no JSON representation")
    | .sym s => pure (.str (m.symName s))
    | .undefined => misread "undef has no JSON representation"
    | .obj _ =>
      match m.body? v with
      | some (.string bytes) => pure (.str (Text.decode bytes))
      | some (.array items) => .arr <$> items.toList.mapM (m.documentWithin n)
      | some (.hash t) => .obj <$> m.membersOf (m.documentWithin n) t.entries.toList []
      | _ => misread ((m.typeOf v).name ++ " cannot be converted to JSON")

def readDocument (m : Machine) (v : Value) : Reading Document :=
  m.documentWithin (m.heap.slots.size + 1) v

def fromGuest (m : Machine) : (t : HostType) → Value → Reading t.Carrier
  | .unit, _ => pure ()
  | .bool, .bool b => pure b
  | .bool, v => m.mismatch "boolean" v
  | .int64, v => m.readInt v
  | .int32, v => m.readInt32 v
  | .size, v => m.readSize v
  | .float, v => m.readFloat v
  | .text, v => m.readString v
  | .option t, v => if v.isNil then pure none else some <$> m.fromGuest t v
  | .list t, v =>
    if m.typeOf v = .array then (m.items v).toList.mapM (m.fromGuest t) else m.mismatch "Array" v
  | .document, v => m.readDocument v
  | .value, v => pure v

end Machine

end GuestVM
