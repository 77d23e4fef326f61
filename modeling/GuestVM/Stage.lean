import GuestVM.Bridge

/-! # Running scripts

A script runs on a stage: the machine it runs in, the bridge, and the host's memory.  `run` gives
its outcome and the stage afterwards, or nothing if the script does not end within `fuel`.  Fuel
bounds two things, how deeply code calls code and how many entries a hash walk visits; what a script
does itself needs none, as a script is a finite tree.  More fuel never changes an answer.

A call pushes a frame, runs the code of the proc, and cuts the stack back to its depth before the
call.  A protected region does so only when its body raises; then it also clears the current
exception and keeps the exception object on the arena. -/
set_option autoImplicit false

namespace GuestVM

/-! ## The stage -/

/-- The host's own memory: named values, a journal of what happened, and the hooks of its walks. -/
structure Memory where
  bindings : List (String × Value) := []
  journal : Array Document := #[]
  hooks : Hooks := {}

namespace Memory

def answer : {a : Answer} → MemoRequest a → Memory → a.Carrier × Memory
  | _, .note entry, m => ((), { m with journal := m.journal.push entry })
  | _, .store name v, m =>
    ((), { m with bindings := (name, v) :: m.bindings.filter (·.1 != name) })
  | _, .load name, m => (m.bindings.lookup name, m)
  | _, .isHooked kind address, m => (m.hooks.isLive address kind, m)

/-- Installs the hook that a walk needs, if it needs one, and gives its address. -/
def hook (m : Memory) (route : Route) (kind : HookKind) : Option Nat × Memory :=
  match route with
  | .direct => (none, m)
  | .hooked =>
    let address := m.hooks.fresh
    (some address, { m with hooks := m.hooks.install address kind })

def unhook (m : Memory) (hook : Option Nat) : Memory :=
  match hook with
  | none => m
  | some address => { m with hooks := m.hooks.remove address }

/-- What runs when a walk calls back. -/
def callback {α : Type} (m : Memory) (kind : HookKind) (hook : Option Nat) (visit stray : α) : α :=
  match hook with
  | none => visit
  | some address => m.hooks.callback kind address visit stray

end Memory

structure Stage where
  machine : Machine
  bridge : Bridge := {}
  memory : Memory := {}

namespace Stage

/-- Does an action; nothing if the action does not end. -/
def act {α : Type} (s : Stage) (a : Act α) : Option (Except Raised α × Stage) :=
  match a.run.run s.machine with
  | (.ok x, m) => some (.ok x, { s with machine := m })
  | (.error (.raised e), m) => some (.error e, { s with machine := m })
  | (.error .endless, _) => none

/-- Does an action that raises nothing. -/
def ask {α : Type} (s : Stage) (a : Act α) : Option (α × Stage) :=
  match s.act a with
  | some (.ok x, s) => some (x, s)
  | _ => none

/-- Does an action that sees the bridge and raises nothing. -/
def askBridge {α : Type} (s : Stage) (d : Bridge.Deed α) : Option (α × Stage) :=
  match s.ask (d.run s.bridge) with
  | some ((x, bridge), s) => some (x, { s with bridge := bridge })
  | none => none

def askMemory {a : Answer} (s : Stage) (r : MemoRequest a) : a.Carrier × Stage :=
  let (x, memory) := s.memory.answer r
  (x, { s with memory := memory })

def onMachine (s : Stage) (f : Machine → Machine) : Stage := { s with machine := f s.machine }

def onMemory (s : Stage) (f : Memory → Memory) : Stage := { s with memory := f s.memory }

/-! ## Outcomes -/

/-- An outcome as guest code sees it: a failure of host code becomes a RuntimeError. -/
def surface (s : Stage) (o : Outcome) : Option (Except Raised Value × Stage) :=
  match o with
  | .value v => some (.ok v, s)
  | .raised e => some (.error e, s)
  | .failed e => (s.ask (Act.raise Builtin.runtimeError.id e.text)).map fun (r, s) => (.error r, s)

def handOn (s : Stage) (d : Discipline) (o : Outcome) : Option (Value × Stage) :=
  match o with
  | .value v => some (v, s)
  | .raised e =>
    match d with
    | .direct => some (e.value, s)
    | .fallible => s.ask (Act.raiseError (.ofRaised e))
  | .failed e => s.ask (Act.raiseError e)

/-! ## Code that runs code -/

abbrev Player := Stage → Option (Outcome × Stage)

def callWith (enter : Script → Player) (begin : Act Script) (s : Stage) :
    Option (Except Raised Value × Stage) :=
  let depth := s.machine.depth
  match s.act begin with
  | none => none
  | some (.error e, s) => some (.error e, s)
  | some (.ok code, s) =>
    match enter code s with
    | none => none
    | some (o, s) => (s.surface o).map fun (r, s) => (r, s.onMachine (·.unwound depth))

/-- Runs a registered callable, if the call is admitted. -/
def hostCallWith (enter : Script → Player) (form : Form) (context : CallContext) (args : Value)
    (s : Stage) : Option (Value × Stage) :=
  let slot := s.bridge.tables.lookup context.index context.function
  match s.ask (Act.resolveCall slot form context.function args) with
  | none => none
  | some (.error v, s) => some (v, s)
  | some (.ok c, s) =>
    match enter (c.body context args) s with
    | none => none
    | some (o, s) => s.handOn c.discipline o

def shield (m : Machine) : Machine := { m with protectDepth := m.protectDepth + 1 }

/-- Ends a protected region that began at a depth. -/
def unshield (depth : Nat) (r : Except Raised Value) (m : Machine) : Machine :=
  let m := { m with protectDepth := m.protectDepth - 1 }
  match r with
  | .ok _ => m
  | .error e =>
    let m := { m.unwound depth with exc := none }
    match e.value.asObj with
    | some id => { m with heap := m.heap.arenaPush id }
    | none => m

def protectWith (body : Player) (s : Stage) : Option (Except Raised Value × Stage) :=
  let depth := s.machine.depth
  match body (s.onMachine shield) with
  | none => none
  | some (o, s) => (s.surface o).map fun (r, s) => (r, s.onMachine (unshield depth r))

/-- Runs the code of a visit, or what stands for it where the hook of the walk is not live. -/
def visitWith (kind : HookKind) (hook : Option Nat) (visit : Player) (s : Stage) :
    Option (WalkStatus × Stage) :=
  let stray : Player := fun s => some (.value WalkStatus.stray.value, s)
  match s.memory.callback kind hook visit stray s with
  | none => none
  | some (o, s) => (s.surface o).map fun (r, s) => (.ofResult r, s)

/-- Visits the entries of a hash from a position on, at most `fuel` of them, after `n` visits; gives
the number of all visits. -/
def walkEntries (visit : Nat → Value → Value → Player) (hook : Option Nat) (hash : Value)
    (removing : Bool) : Nat → Nat → Nat → Stage → Option (Nat × Stage)
  | 0, _, _, _ => none
  | fuel + 1, position, n, s =>
    match (s.machine.table hash).entryAt? position with
    | none => some (n, s)
    | some (key, v) =>
      match visitWith .hash hook (visit n key v) s with
      | none => none
      | some (.next, s) => walkEntries visit hook hash removing fuel (position + 1) (n + 1) s
      | some (.remove, s) =>
        if removing then
          walkEntries visit hook hash removing fuel position (n + 1)
            (s.onMachine (·.removeEntry hash position))
        else walkEntries visit hook hash removing fuel (position + 1) (n + 1) s
      | some (.stop, s) => some (n + 1, s)

/-- Installs the hook that a walk needs, and gives its address. -/
def hook (s : Stage) (route : Route) (kind : HookKind) : Option Nat × Stage :=
  let (address, memory) := s.memory.hook route kind
  (address, { s with memory := memory })

/-- Ends a walk and takes out its hook. -/
def endWalk (s : Stage) (hook : Option Nat) : Stage :=
  (s.onMachine Machine.endWalk).onMemory (·.unhook hook)

/-- Walks a hash; entries are removed only if the hash was not frozen at the start. -/
def walkHashWith (visit : Nat → Value → Value → Player) (fuel : Nat) (route : Route) (hash : Value)
    (s : Stage) : Option (Except Raised Nat × Stage) :=
  let (hook, s) := s.hook route .hash
  match s.act (Act.expectType hash .hash) with
  | none => none
  | some (.error e, s) => some (.error e, s.onMemory (·.unhook hook))
  | some (.ok _, s) =>
    let removing := !s.machine.isFrozen hash
    (walkEntries visit hook hash removing fuel 0 0 (s.onMachine Machine.beginWalk)).map
      fun (n, s) => (.ok n, s.endWalk hook)

/-- Visits objects after `n` visits, up to the first status that is not `next`; gives the visited
ones. -/
def walkObjects (visit : Nat → ObjId → Player) (hook : Option Nat) :
    Nat → List ObjId → Stage → Option (List ObjId × Stage)
  | _, [], s => some ([], s)
  | n, id :: rest, s =>
    if s.machine.heap.isDead id then walkObjects visit hook n rest s
    else
      match visitWith .object hook (visit n id) s with
      | none => none
      | some (.next, s) =>
        (walkObjects visit hook (n + 1) rest s).map fun (visited, s) => (id :: visited, s)
      | some (_, s) => some ([id], s)

def walkHeapWith (visit : Nat → ObjId → Player) (route : Route) (s : Stage) :
    Option (List ObjId × Stage) :=
  let (hook, s) := s.hook route .object
  (walkObjects visit hook 0 s.machine.heap.liveIds (s.onMachine Machine.beginWalk)).map
    fun (visited, s) => (visited, s.endWalk hook)

/-! ## Running -/

/-- Runs a script, given a way to run the code it calls. -/
def runWith (enter : Script → Player) (fuel : Nat) : Script → Player
  | .done o, s => some (o, s)
  | .guest r next, s =>
    match s.ask (Act.answer r) with
    | none => none
    | some (x, s) => runWith enter fuel (next x) s
  | .bridge r next, s =>
    match s.askBridge (Bridge.answer r) with
    | none => none
    | some (x, s) => runWith enter fuel (next x) s
  | .memo r next, s =>
    let (x, s) := s.askMemory r
    runWith enter fuel (next x) s
  | .call receiver mid args block next, s =>
    match callWith enter (Act.enterMethod receiver mid args block) s with
    | none => none
    | some (r, s) => runWith enter fuel (next r) s
  | .callProc proc self args next, s =>
    match callWith enter (Act.enterProc proc self args) s with
    | none => none
    | some (r, s) => runWith enter fuel (next r) s
  | .protect body next, s =>
    match protectWith (runWith enter fuel body) s with
    | none => none
    | some (r, s) => runWith enter fuel (next r) s
  | .newNative body next, s =>
    match s.ask (Act.newNative body) with
    | none => none
    | some (id, s) => runWith enter fuel (next id) s
  | .newLexical body next, s =>
    match s.ask (Act.newLexical body) with
    | none => none
    | some (id, s) => runWith enter fuel (next id) s
  | .register index form discipline body aspec next, s =>
    let (function, tables) := s.bridge.tables.register index ⟨form, discipline, body⟩ aspec
    runWith enter fuel (next function) { s with bridge := { s.bridge with tables := tables } }
  | .hostCall form index receiver function args next, s =>
    match hostCallWith enter form ⟨index, receiver, function⟩ args s with
    | none => none
    | some (v, s) => runWith enter fuel (next v) s
  | .walkHash route hash visit next, s =>
    match walkHashWith (fun n key v => runWith enter fuel (visit n key v)) fuel route hash s with
    | none => none
    | some (r, s) => runWith enter fuel (next r) s
  | .walkHeap route visit next, s =>
    match walkHeapWith (fun n id => runWith enter fuel (visit n id)) route s with
    | none => none
    | some (visited, s) => runWith enter fuel (next visited) s

def run : Nat → Script → Player
  | 0 => runWith (fun _ _ => none) 0
  | fuel + 1 => runWith (run fuel) (fuel + 1)

end Stage

end GuestVM
