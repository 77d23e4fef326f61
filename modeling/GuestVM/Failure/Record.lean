import GuestVM.Document
import GuestVM.Failure

/-! # Failures as documents

The form in which a failure leaves the program. -/
set_option autoImplicit false

namespace GuestVM

/-- An exception on its way up: its class, its message, its text and the id of its object. -/
def Raised.document (e : Raised) : Document :=
  .ofMembers
    [("raise", .str e.className), ("msg", .str e.message), ("text", .str e.text),
      ("id", .ofOption (fun id => .int id.slot) e.value.asObj)]

def HostError.document (e : HostError) : Document := .ofMembers [("host_error", .str e.text)]

end GuestVM
