import GuestVM.Bridge

/-! # Threads at the bridge

The registry and the tables belong to the whole process, and machines are opened and closed by any
number of threads.  Registration and its undoing are each several atomic steps, between which other
threads take theirs: a look-up, and for a machine that is not found the step that holds the
allocator; the removal of the row, and then the release of the index; and before these, for a linked
machine that is closed, the step that drops its table.

`Threads` is the state that threads share, with what each thread is about.  What a thread does alone
is what `Registry.register`, `Registry.unregister` and `World.unlink` do at once. -/
set_option autoImplicit false

namespace GuestVM

/-- What a thread does next. -/
inductive Task where
  /-- Nothing; its last call gave an index or none. -/
  | done (answer : Option Nat)
  /-- The first look-up of a registration, which may be that of a linked machine being opened. -/
  | seek (h : Handle) (opening : Bool)
  | enrol (h : Handle) (opening : Bool)
  /-- The first step of closing a linked machine that remembers an index. -/
  | drop (h : Handle) (index : Nat)
  | withdraw (h : Handle)
  | release (index : Nat)

/-- What a thread may set about. -/
inductive Errand where
  | openBare (h : Handle)
  | openLinked (h : Handle)
  | close (h : Handle)
  | register (h : Handle)
  | unregister (h : Handle)
  | gain (index : Nat) (c : Callable) (aspec : Aspec)
  | lose (index function : Nat)

structure Threads where
  bridge : Bridge := {}
  /-- The handles given out so far; none is given out twice. -/
  handles : List Handle := []
  /-- The open linked machines, with the index that each remembers. -/
  links : List (Handle × Nat) := []
  tasks : Nat → Task := fun _ => .done none

namespace Threads

inductive Move where
  | setOut (e : Errand)
  | onward

def index? (s : Threads) (h : Handle) : Option Nat := s.bridge.registry.find h

def setTask (s : Threads) (t : Nat) (task : Task) : Threads :=
  { s with tasks := fun u => if u = t then task else s.tasks u }

def setRegistry (s : Threads) (r : Registry) : Threads :=
  { s with bridge := { s.bridge with registry := r } }

def setTables (s : Threads) (t : Tables) : Threads :=
  { s with bridge := { s.bridge with tables := t } }

/-- A registration is over; a linked machine remembers its index. -/
def registered (s : Threads) (t : Nat) (h : Handle) (opening : Bool) (index : Nat) : Threads :=
  { s with links := if opening then (h, index) :: s.links else s.links }.setTask t
    (.done (some index))

/-- The next atomic step of a thread. -/
def onward (s : Threads) (t : Nat) : Threads :=
  match s.tasks t with
  | .done _ => s
  | .seek h opening =>
    match s.index? h with
    | some i => s.registered t h opening i
    | none => s.setTask t (.enrol h opening)
  | .enrol h opening =>
    let (i, registry) := s.bridge.registry.enrol h
    (s.setRegistry registry).registered t h opening i
  | .drop h index => (s.setTables (s.bridge.tables.drop index)).setTask t (.withdraw h)
  | .withdraw h =>
    match s.bridge.registry.withdraw h with
    | (some i, registry) => (s.setRegistry registry).setTask t (.release i)
    | (none, registry) => (s.setRegistry registry).setTask t (.done none)
  | .release index =>
    (s.setRegistry (s.bridge.registry.release index)).setTask t (.done (some index))

/-- A thread sets about something, if it can be done now. -/
def setOut (s : Threads) (t : Nat) : Errand → Option Threads
  | .openBare h => if h ∈ s.handles then none else some { s with handles := h :: s.handles }
  | .openLinked h =>
    if h ∈ s.handles then none
    else some ({ s with handles := h :: s.handles }.setTask t (.seek h true))
  | .close h =>
    (s.links.lookup h).map fun index =>
      { s with links := s.links.filter (·.1 != h) }.setTask t (.drop h index)
  | .register h => if h ∈ s.handles then some (s.setTask t (.seek h false)) else none
  | .unregister h => if h ∈ s.handles then some (s.setTask t (.withdraw h)) else none
  | .gain index c aspec => some (s.setTables (s.bridge.tables.register index c aspec).2)
  | .lose index function => some (s.setTables (s.bridge.tables.unregister index function).2)

def step (s : Threads) (t : Nat) (move : Move) : Option Threads :=
  match s.tasks t, move with
  | .done _, .setOut e => s.setOut t e
  | .done _, .onward => none
  | _, .onward => some (s.onward t)
  | _, .setOut _ => none

end Threads

end GuestVM
