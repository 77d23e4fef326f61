import GuestVM.Script

/-! # Writing scripts

Code is a script written step by step: it may read something of type `ρ`, and ends with a result or
with a fault.  A fault is an exception of the guest, an error of host code, or a refusal to go on
because what was asked for makes no sense. -/
set_option autoImplicit false

namespace GuestVM

inductive Fault where
  | raised (e : Raised)
  | failed (e : HostError)
  | refused (text : String)
  deriving DecidableEq

/-- Code says what to go on with, given what to do with its result and with a fault. -/
def Code (ρ α : Type) : Type := ρ → (α → Script) → (Fault → Script) → Script

namespace Code

variable {ρ α : Type}

instance : Monad (Code ρ) where
  pure x := fun _ next _ => next x
  bind c f := fun r next fault => c r (fun x => f x r next fault) fault

instance : Inhabited Script := ⟨.done (.value .nil)⟩

instance : Inhabited (Code ρ α) := ⟨fun _ _ fault => fault (.refused "")⟩

def surroundings : Code ρ ρ := fun r next _ => next r

def stop (f : Fault) : Code ρ α := fun _ _ fault => fault f

/-- Refuses to go on without a result. -/
def need (text : String) : Option α → Code ρ α
  | some x => pure x
  | none => stop (.refused text)

def orRaise : Except Raised α → Code ρ α
  | .ok x => pure x
  | .error e => stop (.raised e)

def script (make : (α → Script) → Script) : Code ρ α := fun _ next _ => make next

def attempting (make : (Except Raised α → Script) → Script) : Code ρ α := do
  orRaise (← script make)

def guest {a : Answer} (q : GuestRequest a) : Code ρ a.Carrier := script (.guest q)

def bridge {a : Answer} (q : BridgeRequest a) : Code ρ a.Carrier := script (.bridge q)

def memo {a : Answer} (q : MemoRequest a) : Code ρ a.Carrier := script (.memo q)

def guestTry {a : Answer} (q : GuestRequest (.attempt a)) : Code ρ a.Carrier :=
  attempting (.guest q)

def bridgeTry {a : Answer} (q : BridgeRequest (.attempt a)) : Code ρ a.Carrier :=
  attempting (.bridge q)

end Code

end GuestVM
