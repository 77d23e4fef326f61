import GuestVM.Value

/-! # Portraits

A portrait is a picture of a value as it stands at one moment: what an observer outside the machine
may keep after the machine has moved on.  It is a finite tree; below a chosen depth objects show
only their id and tag, so cyclic structures have portraits too. -/
set_option autoImplicit false

namespace GuestVM

inductive Portrait where
  /-- An immediate that is no symbol. -/
  | plain (v : Value)
  | symbol (name : String)
  /-- An id that names no object. -/
  | dead (id : ObjId)
  /-- An object below the chosen depth. -/
  | outline (id : ObjId) (tag : ValueType)
  | object (id : ObjId) (tag : ValueType) (className : String) (frozen : Bool)
  | classLike (id : ObjId) (tag : ValueType) (className : String) (frozen : Bool) (name : String)
  | proc (id : ObjId) (className : String) (frozen : Bool) (flags : Nat) (env : Option Portrait)
      (target : Option String)
  | array (id : ObjId) (className : String) (frozen : Bool) (size : Nat) (items : List Portrait)
  | hash (id : ObjId) (className : String) (frozen : Bool) (size : Nat)
      (entries : List (Portrait × Portrait))
  | string (id : ObjId) (className : String) (frozen : Bool) (bytes : List UInt8)
  | range (id : ObjId) (className : String) (frozen : Bool) (first last : Portrait)
      (exclusive : Bool)
  | exception (id : ObjId) (className : String) (frozen : Bool) (message : String)
  | env (id : ObjId) (className : String) (frozen : Bool) (isShared : Bool)
      (values : List Portrait)
  | istruct (id : ObjId) (className : String) (frozen : Bool) (word : Int64)
  deriving Inhabited

def Portrait.listLimit : Nat := 64

end GuestVM
