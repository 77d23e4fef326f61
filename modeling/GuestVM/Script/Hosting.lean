import GuestVM.Script

/-! # Giving host callables to the guest

A host callable becomes a method in two steps: it is registered in the table of an instance, which
numbers it, and a bridged proc with that number is installed.  The number is what the host keeps. -/
set_option autoImplicit false

namespace GuestVM.Script

/-- Registers a callable under an instance index and installs it as a method. -/
def defineHosted (index : Nat) (place : Placement) (name : String) (form : Form)
    (discipline : Discipline) (body : CallContext → Value → Script) (aspec : Aspec)
    (next : Except Raised Nat → Script) : Script :=
  .register index form discipline body aspec fun function =>
    .bridge (.defineCallable place name function aspec) fun
      | .ok _ => next (.ok function)
      | .error e => next (.error e)

/-- Registers a free callable that takes any arguments and makes a proc for it. -/
def procHosted (index : Nat) (body : CallContext → Value → Script)
    (next : Except Raised Value → Script) : Script :=
  .register index .free .direct body .any fun function =>
    .bridge (.callableProc function) next

end GuestVM.Script
