import GuestVM.Document
import GuestVM.Value

/-! # Host types

The types of host data that cross into the guest and back.  `HostType` is a code for such a type and
`Carrier` the type it names, so that a conversion is one function on codes and a law about it is
proved by induction on the code. -/
set_option autoImplicit false

namespace GuestVM

inductive HostType where
  | unit | bool | int64 | int32 | size | float | text
  | option (t : HostType)
  | list (t : HostType)
  | document
  | value
  deriving DecidableEq

/-- The host data of a type.  `size` is the unsigned machine word. -/
def HostType.Carrier : HostType → Type
  | .unit => Unit
  | .bool => Bool
  | .int64 => Int64
  | .int32 => Int32
  | .size => UInt64
  | .float => Binary64
  | .text => String
  | .option t => Option t.Carrier
  | .list t => List t.Carrier
  | .document => Document
  | .value => Value

end GuestVM
