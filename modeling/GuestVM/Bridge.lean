import GuestVM.Bridge.Conversion
import GuestVM.Bridge.Gateway
import GuestVM.Bridge.Registry
import GuestVM.Bridge.Typed
import GuestVM.Machine.Answering

/-! # The bridge

What all machines share on the host's side: the registry of instance indices and the tables of host
callables.  A request to the bridge is answered by these and the machine that asks. -/
set_option autoImplicit false

namespace GuestVM

structure Bridge where
  registry : Registry := {}
  tables : Tables := {}

namespace Bridge

def callable? (b : Bridge) (h : Handle) (function : Nat) : Option CallableSlot :=
  b.tables.lookup (b.registry.indexOf h) function

/-- The form of the callable that a number means to a machine, or `missing`. -/
def formOf (b : Bridge) (h : Handle) (function : Nat) (missing : Form) : Form :=
  ((b.callable? h function).map (·.form)).getD missing

abbrev Deed (α : Type) := StateT Bridge (ExceptT Halt (StateM Machine)) α

def seeing {α : Type} (f : Bridge → Handle → Act α) : Deed α := do
  let b ← get
  let m ← (show Act Machine from get)
  f b m.handle

def onRegistry {α : Type} (f : Registry → α × Registry) : Deed α := do
  let b ← get
  let (x, registry) := f b.registry
  set { b with registry := registry }
  return x

def onTables {α : Type} (f : Tables → α × Tables) : Deed α := do
  let b ← get
  let (x, tables) := f b.tables
  set { b with tables := tables }
  return x

end Bridge

open Act in
def Bridge.answer : {a : Answer} → BridgeRequest a → Bridge.Deed a.Carrier
  | _, .attachEnv proc values => attempt (attachEnv proc values)
  | _, .envGet proc index => attempt (envGet proc index)
  | _, .envSet proc index v => attempt (envSet proc index v)
  | _, .envLen proc => reading (·.attachedLen proc)
  | _, .raise c message => hostRaise c message
  | _, .raiseError e => raiseError e
  | _, .raiseIfLive v => attempt (raiseIfLive v)
  | _, .defineCallable place name function aspec =>
    seeing fun b h =>
      attempt (defineCallable (b.formOf h function .bound) place name function aspec)
  | _, .callableProc function =>
    seeing fun b h => attempt (callableProc (b.formOf h function .free) function)
  | _, .lookup index function => do
    return ((← get).tables.lookup index function).map fun s => (s.index, s.aspec, s.bindsSelf)
  | _, .unregister index function => onTables (·.unregister index function)
  | _, .callbackCount index => do return (← get).tables.count index
  | _, .dropTable index => onTables fun t => ((), t.drop index)
  | _, .registerInstance => do
    let h ← reading (·.handle)
    onRegistry (·.register h)
  | _, .unregisterInstance => do
    let h ← reading (·.handle)
    onRegistry (·.unregister h)
  | _, .currentIndex => seeing fun b h => pure (b.registry.indexOf h)
  | _, .liveInstances => do return (← get).registry.size
  | _, .indexOf h => do return (← get).registry.indexOf h
  | _, .ownHandle => reading (·.handle)
  | _, .intoGuest t x => intoGuest t x
  | _, .fromGuest t v => do ofOption ((← (show Act Machine from get)).fromGuest t v).run
  | _, .itemOr a index default => attempt (itemOr a index default)
  | _, .fetch h key => attempt (fetch h key)

end GuestVM
