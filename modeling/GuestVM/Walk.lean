import GuestVM.Failure

/-! # Walks

A walk visits the entries of a hash or the objects of the heap and runs host code on each visit.
The status that a visit ends with decides how the walk goes on.  While a walk is under way nothing
is collected.  A heap walk visits the objects that were live at its start; a hash walk looks at the
hash anew for each visit, so it sees what visits did to the hash.

A walk that host code begins through the bridge calls back by an address: the address leads to the
callback as long as it stands in the host's table of hooks, and its walk puts it there and takes it
out again.  Callbacks that wait at the same time have different addresses. -/
set_option autoImplicit false

namespace GuestVM

inductive WalkStatus where
  | next
  /-- Take the visited entry out and go on. -/
  | remove
  | stop
  deriving DecidableEq, Inhabited

namespace WalkStatus

def code : WalkStatus → Int32
  | .next => 0
  | .stop => 1
  | .remove => 2

/-- Any other code stops the walk. -/
def ofCode (n : Int32) : WalkStatus :=
  if n = code .next then .next else if n = code .remove then .remove else .stop

/-- The status a visit ends with: its number, cut to 32 bits; an exception stops the walk. -/
def ofResult : Except Raised Value → WalkStatus
  | .ok (.int n) => ofCode n.toInt32
  | .ok _ => .next
  | .error _ => .stop

/-- What a hook answers that is not live. -/
def stray : WalkStatus := .stop

/-- A status as code gives it. -/
def value (status : WalkStatus) : Value := .int status.code.toInt64

end WalkStatus

/-! ## Hooks -/

/-- How a walk calls back: as code of the machine does, or through the table of hooks. -/
inductive Route where
  | direct | hooked
  deriving DecidableEq

inductive HookKind where
  | hash | object
  deriving DecidableEq

/-- The live hooks, by their addresses. -/
structure Hooks where
  rows : List (Nat × HookKind) := []

namespace Hooks

/-- An address that no hook has. -/
def fresh (h : Hooks) : Nat := (h.rows.map fun row => row.1 + 1).max?.getD 0

def install (h : Hooks) (address : Nat) (kind : HookKind) : Hooks :=
  ⟨(address, kind) :: h.rows.filter (·.1 != address)⟩

def remove (h : Hooks) (address : Nat) : Hooks := ⟨h.rows.filter (·.1 != address)⟩

def isLive (h : Hooks) (address : Nat) (kind : HookKind) : Bool := h.rows.lookup address == some kind

/-- What a call by an address runs: the callback of the hook, or `stray` if no hook of the kind is
live there. -/
def callback {α : Type} (h : Hooks) (kind : HookKind) (address : Nat) (hook stray : α) : α :=
  if h.isLive address kind then hook else stray

end Hooks

end GuestVM
