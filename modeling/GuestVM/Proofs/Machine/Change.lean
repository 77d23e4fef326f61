import GuestVM.Bridge.Environment
import GuestVM.Machine.Calls
import GuestVM.Machine.Define
import GuestVM.Machine.Hashes
import GuestVM.Machine.Objects
import GuestVM.Proofs.Heap.Survival
import Mathlib.Logic.Relation

/-! # Changes of a machine

Whatever code does to a machine is a sequence of few kinds of small changes.  `Change` lists them,
each with what is known when it is made: an array changes only while it is thawed, a new object
starts out empty, what an object comes to name was handed over, is live, or was named already.  An
invariant is then shown once for each kind of change, not once for each operation.

A `Grant` says what a piece of code was handed and which of the rarer changes it may make. -/
set_option autoImplicit false

namespace GuestVM

/-! ## What a machine holds -/

namespace Machine

def Live (m : Machine) (id : ObjId) : Prop := (m.object? id).isSome

instance (m : Machine) (id : ObjId) : Decidable (m.Live id) :=
  inferInstanceAs (Decidable ((m.object? id).isSome))

/-- The value is immediate or its object is alive. -/
def IsLive (m : Machine) (v : Value) : Prop := ∀ id, v.asObj = some id → m.Live id

/-- The ids that a machine names: its roots, the arena, and what its live objects name. -/
def Holds (m : Machine) (id : ObjId) : Prop :=
  id ∈ m.roots ∨ id ∈ m.heap.arena ∨ ∃ holder o, m.object? holder = some o ∧ id ∈ o.references

end Machine

/-! ## Grants -/

/-- What a piece of code is handed and what it may do that most code may not. -/
structure Grant where
  ids : List ObjId := []
  /-- The proc whose environment may be written. -/
  owner : Option ObjId := none
  /-- The proc that may get another environment, without checks. -/
  rebinds : Option ObjId := none
  /-- The object that may be edited from outside the rules. -/
  edits : Option ObjId := none
  sweeps : Bool := false
  /-- Whether the current exception may be cleared. -/
  clears : Bool := false
  /-- Whether classes may be made, modules and singleton classes among them. -/
  founds : Bool := false
  /-- The class that a new class or module is named in. -/
  names : Option ObjId := none
  /-- The hash that may lose entries. -/
  drops : Option ObjId := none
  /-- The position at which a walk takes out an entry. -/
  walk : Option Nat := none

/-- The ids that code with a grant can come by. -/
def Machine.Known (m : Machine) (g : Grant) (id : ObjId) : Prop :=
  id ∈ g.ids ∨ m.Live id ∨ m.Holds id

/-! ## What may happen to an object -/

/-- A new object is thawed and holds nothing but what its body is made of; a class starts without
tables, a proc without environment and target, a hash without entries, an environment unshared. -/
def Object.Newborn (o : Object) : Prop :=
  o.frozen = false ∧ o.ivars = {} ∧
    match o.body with
    | .class c => c.methods = {} ∧ c.consts = {} ∧
        ∀ v, c.kind = .singleton v → c.superclass.isSome
    | .proc p => p.env = none ∧ p.target = none
    | .hash t => t = .empty
    | .env _ isShared => isShared = false
    | _ => True

/-- A class is new only where classes may be made, and a plain one is put below a plain class. -/
def Object.Founded (g : Grant) (m : Machine) (o : Object) : Prop :=
  ∀ c, o.body = .class c → g.founds = true ∧
    (c.kind = .plain → ∃ p, c.superclass = some p ∧ m.typeOf (.obj p) = .plainClass)

/-- No write can change what a key stands for: a string has to be frozen. -/
def Machine.Settled (m : Machine) (key : Value) : Prop :=
  ∀ id o bytes, key = .obj id → m.object? id = some o → o.body = .string bytes → o.frozen = true

/-- What may become of the table of a thawed hash.  Where entries are dropped none are entered. -/
inductive Retabling (g : Grant) (m : Machine) (id : ObjId) (t : HashTable) : HashTable → Prop
  | enter (key v : Value) (settled : m.Settled key) (keeps : g.drops = none) :
      Retabling g m id t (t.insert (m.hashKey key) key v)
  | drop (k : HashKey) (may : g.drops = some id) : Retabling g m id t (t.erase k).2
  | clear (may : g.drops = some id) : Retabling g m id t .empty

/-- What may happen to a live object at once. -/
inductive Touch (g : Grant) (m : Machine) (id : ObjId) (o : Object) : Object → Prop
  | freeze : Touch g m id o { o with frozen := true }
  | ivar (s : Sym) (v : Value) (thawed : o.frozen = false) :
      Touch g m id o { o with ivars := o.ivars.insert s v }
  /-- The object gets its singleton class, which for an exception is below the class that it had. -/
  | reclass (s : ObjId) (own : Act.isSingletonOf m s (.obj id) = true) (may : g.founds = true)
      (below : ∀ message, o.body = .exception message → m.superclass? s = some o.cls) :
      Touch g m id o { o with cls := s }
  | items (before after : Array Value) (body : o.body = .array before) (thawed : o.frozen = false) :
      Touch g m id o { o with body := .array after }
  | bytes (before after : List UInt8) (body : o.body = .string before)
      (thawed : o.frozen = false) : Touch g m id o { o with body := .string after }
  | table (before after : HashTable) (body : o.body = .hash before) (thawed : o.frozen = false)
      (how : Retabling g m id before after) : Touch g m id o { o with body := .hash after }
  /-- A walk takes out an entry, also of a hash frozen meanwhile. -/
  | removal (table : HashTable) (position : Nat) (body : o.body = .hash table)
      (may : g.drops = some id) (walking : g.walk = some position) :
      Touch g m id o { o with body := .hash (table.removeAt position) }
  /-- Naming a new class does not look at the flag. -/
  | const (c : ClassData) (s : Sym) (v : Value) (body : o.body = .class c)
      (may : o.frozen = false ∨ g.names = some id) :
      Touch g m id o { o with body := .class { c with consts := c.consts.insert s v } }
  | method (c : ClassData) (s : Sym) (method : Method) (body : o.body = .class c)
      (thawed : o.frozen = false) :
      Touch g m id o { o with body := .class { c with methods := c.methods.insert s method } }
  | unmethod (c : ClassData) (s : Sym) (body : o.body = .class c) (thawed : o.frozen = false) :
      Touch g m id o { o with body := .class { c with methods := c.methods.erase s } }
  | install (p : ProcData) (c : ObjId) (noArg : Bool) (body : o.body = .proc p) :
      Touch g m id o { o with body := .proc (Act.ProcData.installed p c noArg) }
  | rebind (p : ProcData) (env : ObjId) (body : o.body = .proc p) (may : g.rebinds = some id) :
      Touch g m id o { o with
        body := .proc { p with env := some env, flags := { p.flags with envSet := true } } }
  | write (q : ObjId) (values after : Array Value) (isShared : Bool)
      (body : o.body = .env values isShared) (size : after.size = values.size)
      (may : g.owner = some q) (owned : m.procEnv q = some id) :
      Touch g m id o { o with body := .env after isShared }
  | edit (e : Edit) (may : g.edits = some id) : Touch g m id o (e.apply o)

/-- Nothing is made an exception of. -/
theorem Touch.exception_before {g : Grant} {m : Machine} {id : ObjId} {o o' : Object}
    {message : String} (how : Touch g m id o o') (body : o'.body = .exception message) :
    o.body = .exception message := by
  cases how with
  | freeze => exact body
  | ivar => exact body
  | reclass => exact body
  | edit e =>
      cases e with
      | thaw => exact body
      | _ => cases body
  | _ => cases body

/-! ## What may happen to a machine -/

namespace Machine

def withNew (m : Machine) (o : Object) : Machine := { m with heap := (m.heap.alloc o).2 }

def newId (m : Machine) (o : Object) : ObjId := (m.heap.alloc o).1

def put (m : Machine) (id : ObjId) (o : Object) : Machine :=
  { m with heap := m.heap.modify id fun _ => o }

end Machine

def Object.env (values : Array Value) : Object :=
  { cls := Builtin.object.id, body := .env values false }

def ProcData.attached (p : ProcData) (env : ObjId) : ProcData :=
  { p with env := some env, flags := { p.flags with envSet := true } }

inductive Change (g : Grant) (m : Machine) : Machine → Prop
  | intern (name : String) : Change g m { m with symbols := (m.symbols.intern name).2 }
  | alloc (o : Object) (born : o.Newborn) (known : ∀ x ∈ o.references, m.Known g x)
      (founded : o.Founded g m) : Change g m (m.withNew o)
  | touch (id : ObjId) (o o' : Object) (live : m.object? id = some o) (how : Touch g m id o o')
      (known : ∀ x ∈ o'.references, x ∈ o.references ∨ m.Known g x) : Change g m (m.put id o')
  /-- A proc without values in its environment gets a new one. -/
  | attach (id : ObjId) (o : Object) (p : ProcData) (values : Array Value)
      (live : m.object? id = some o) (body : o.body = .proc p)
      (bare : m.attachedLen (.obj id) = 0)
      (known : ∀ x ∈ Value.objects values.toList, m.Known g x) :
      Change g m ((m.withNew (.env values)).put id
        { o with body := .proc (p.attached (m.newId (.env values))) })
  | raise (id : ObjId) (o : Object) (message : String) (live : m.object? id = some o)
      (body : o.body = .exception message) : Change g m { m with exc := some id }
  | clear (may : g.clears = true) : Change g m { m with exc := none }
  | bind (s : Sym) (v : Value) (known : ∀ x, v = .obj x → m.Known g x) :
      Change g m { m with globals := m.globals.insert s v }
  | cutArena (mark : Nat) : Change g m { m with heap := m.heap.arenaRestore mark }
  | pushArena (id : ObjId) (known : m.Known g id) : Change g m { m with heap := m.heap.arenaPush id }
  /-- Only code that is handed nothing collects. -/
  | collect (may : g.sweeps = true) (alone : g.ids = []) :
      Change g m { m with heap := (m.heap.collect m.roots).2 }
  | setDisabled (disabled : Bool) : Change g m { m with heap := (m.heap.setDisabled disabled).2 }
  | setWalks (n : Nat) : Change g m { m with heap := { m.heap with walks := n } }
  | enter (f : Frame) (p : ProcData) (proc : m.procData? f.proc = some p)
      (room : m.depth < m.config.maxCallDepth.toNat) (known : ∀ x ∈ f.references, m.Known g x) :
      Change g m { m with frames := f :: m.frames }
  | unwind (depth : Nat) : Change g m (m.unwound depth)
  | setProtectDepth (n : Nat) : Change g m { m with protectDepth := n }

abbrev Evolution (g : Grant) : Machine → Machine → Prop := Relation.ReflTransGen (Change g)

/-! ## Objects before and after -/

namespace Machine

theorem object?_put (m : Machine) (id : ObjId) (o : Object) (x : ObjId) :
    (m.put id o).object? x = if x = id then (m.object? x).map fun _ => o else m.object? x :=
  Heap.get?_modify m.heap id (fun _ => o) x

theorem object?_modify (m : Machine) (id : ObjId) (f : Object → Object) (x : ObjId) :
    ({ m with heap := m.heap.modify id f } : Machine).object? x =
      if x = id then (m.object? x).map f else m.object? x :=
  Heap.get?_modify m.heap id f x

theorem object?_withNew {m : Machine} (tidy : m.heap.Tidy) (o : Object) (x : ObjId) :
    (m.withNew o).object? x = if x = m.newId o then some o else m.object? x :=
  Heap.get?_alloc tidy o x

theorem newId_dead {m : Machine} (tidy : m.heap.Tidy) (o : Object) :
    m.object? (m.newId o) = none :=
  Heap.get?_alloc_self_before tidy o

theorem Live.of_object? {m : Machine} {id : ObjId} {o : Object} (present : m.object? id = some o) :
    m.Live id := by
  rw [Live, present]
  rfl

theorem Live.isLive {m : Machine} {id : ObjId} (live : m.Live id) : m.IsLive (.obj id) :=
  fun _ same => Option.some.inj same ▸ live

theorem Live.object? {m : Machine} {id : ObjId} (live : m.Live id) :
    ∃ o, m.object? id = some o := Option.isSome_iff_exists.mp live

theorem body?_eq_some {m : Machine} {id : ObjId} {b : Body} :
    m.body? (.obj id) = some b ↔ ∃ o, m.object? id = some o ∧ o.body = b := by
  simp [body?, Value.asObj, Option.bind_eq_some_iff]

theorem live_of_body? {m : Machine} {id : ObjId} {b : Body} (body : m.body? (.obj id) = some b) :
    m.Live id := by
  obtain ⟨o, present, -⟩ := body?_eq_some.mp body
  exact .of_object? present

/-- There are no more live objects than slots. -/
theorem length_le_size {m : Machine} {ids : List ObjId} (distinct : ids.Nodup)
    (live : ∀ x ∈ ids, m.Live x) : ids.length ≤ m.heap.slots.size := by
  have apart : (ids.map ObjId.slot).Nodup := distinct.map fun _ _ => ObjId.ext_slot
  have within : ids.map ObjId.slot ⊆ List.range m.heap.slots.size := by
    intro slot member
    obtain ⟨x, inside, rfl⟩ := List.mem_map.mp member
    obtain ⟨o, present⟩ := (live x inside).object?
    exact List.mem_range.mpr (Heap.slot_lt_of_get? present)
  have fits := List.Nodup.length_le_of_subset apart within
  rwa [List.length_map, List.length_range] at fits

theorem ne_newId {m : Machine} (tidy : m.heap.Tidy) (o : Object) {x : ObjId} (live : m.Live x) :
    x ≠ m.newId o := by
  intro same
  rw [same, Live, newId_dead tidy] at live
  cases live

theorem object?_withNew_of_live {m : Machine} (tidy : m.heap.Tidy) (o : Object) {x : ObjId}
    {p : Object} (present : m.object? x = some p) : (m.withNew o).object? x = some p :=
  Heap.get?_alloc_of_live tidy o present

theorem live_withNew {m : Machine} (tidy : m.heap.Tidy) (o : Object) {x : ObjId}
    (live : m.Live x) : (m.withNew o).Live x := by
  rw [Live, object?_withNew tidy]
  split
  · rfl
  · exact live

theorem live_newId {m : Machine} (tidy : m.heap.Tidy) (o : Object) :
    (m.withNew o).Live (m.newId o) := by
  simp [Live, object?_withNew tidy]

theorem live_modify {m : Machine} {x : ObjId} (live : m.Live x) {id : ObjId}
    (f : Object → Object) : ({ m with heap := m.heap.modify id f } : Machine).Live x := by
  obtain ⟨p, present⟩ := live.object?
  rw [Live, object?_modify, present]
  split <;> rfl

theorem live_put {m : Machine} {id x : ObjId} {o : Object} (live : m.Live x) :
    (m.put id o).Live x := live_modify live _

/-- Nothing comes to life in a replacement. -/
theorem object?_of_put {m : Machine} {id x : ObjId} {o p : Object}
    (after : (m.put id o).object? x = some p) :
    (x = id ∧ p = o) ∨ m.object? x = some p := by
  rw [object?_put] at after
  by_cases same : x = id
  · rw [if_pos same] at after
    cases before : m.object? x with
    | none => simp [before] at after
    | some q => exact .inl ⟨same, by simpa [before] using after.symm⟩
  · rw [if_neg same] at after
    exact .inr after

theorem object?_put_self {m : Machine} {id : ObjId} {o p : Object} (live : m.object? id = some p) :
    (m.put id o).object? id = some o := by
  rw [object?_put, if_pos rfl, live]
  rfl

theorem object?_put_of_ne {m : Machine} {id x : ObjId} {o : Object} (apart : x ≠ id) :
    (m.put id o).object? x = m.object? x := by
  rw [object?_put, if_neg apart]

end Machine

namespace Change

variable {g : Grant} {m m' : Machine}

theorem tidy (change : Change g m m') (tidy : m.heap.Tidy) : m'.heap.Tidy := by
  cases change with
  | alloc o => exact Heap.Tidy.alloc tidy o
  | touch id _ o' => exact Heap.Tidy.modify tidy id fun _ => o'
  | attach id o p values => exact Heap.Tidy.modify (Heap.Tidy.alloc tidy _) id _
  | collect => exact Heap.Tidy.collect tidy m.roots
  | _ => exact tidy

/-- What an object was before a change: the same, touched, given an environment, or not there. -/
theorem object?_before (change : Change g m m') (tidy : m.heap.Tidy) {x : ObjId} {o' : Object}
    (after : m'.object? x = some o') :
    m.object? x = some o' ∨
      (∃ o, m.object? x = some o ∧ Touch g m x o o' ∧
        ∀ y ∈ o'.references, y ∈ o.references ∨ m.Known g y) ∨
      (∃ o p env, m.object? x = some o ∧ o.body = .proc p ∧ m.attachedLen (.obj x) = 0 ∧
        m.object? env = none ∧ o' = { o with body := .proc (p.attached env) }) ∨
      (m.object? x = none ∧ o'.Newborn) := by
  cases change with
  | alloc o born =>
      rw [Machine.object?_withNew tidy] at after
      by_cases new : x = m.newId o
      · rw [if_pos new] at after
        cases after
        exact .inr (.inr (.inr ⟨new ▸ Machine.newId_dead tidy _, born⟩))
      · rw [if_neg new] at after
        exact .inl after
  | touch id o _ live how known =>
      rcases Machine.object?_of_put after with ⟨rfl, rfl⟩ | same
      · exact .inr (.inl ⟨o, live, how, known⟩)
      · exact .inl same
  | attach id o p values live body bare =>
      have dead := Machine.newId_dead tidy (.env values)
      rcases Machine.object?_of_put after with ⟨rfl, rfl⟩ | same
      · exact .inr (.inr (.inl ⟨o, p, _, live, body, bare, dead, rfl⟩))
      · rw [Machine.object?_withNew tidy] at same
        by_cases new : x = m.newId (.env values)
        · rw [if_pos new] at same
          cases same
          exact .inr (.inr (.inr ⟨new ▸ dead, rfl, rfl, rfl⟩))
        · rw [if_neg new] at same
          exact .inl same
  | collect => exact .inl (Heap.get?_of_get?_collect after)
  | _ => exact .inl after

/-- What becomes of an object: it stays, is touched, is given an environment, or is collected. -/
theorem object?_after (change : Change g m m') (tidy : m.heap.Tidy) {x : ObjId} {o : Object}
    (before : m.object? x = some o) :
    m'.object? x = some o ∨ (∃ o', m'.object? x = some o' ∧ Touch g m x o o') ∨
      (∃ p env, o.body = .proc p ∧
        m'.object? x = some { o with body := .proc (p.attached env) }) ∨
      (g.sweeps = true ∧ m'.object? x = none) := by
  have old : ∀ p, (m.withNew p).object? x = some o :=
    fun p => Machine.object?_withNew_of_live tidy p before
  cases change with
  | alloc p => exact .inl (old p)
  | touch id p p' live how =>
      by_cases same : x = id
      · subst same
        cases before.symm.trans live
        exact .inr (.inl ⟨p', Machine.object?_put_self before, how⟩)
      · exact .inl ((Machine.object?_put_of_ne same).trans before)
  | attach id p q values live body =>
      by_cases same : x = id
      · subst same
        cases before.symm.trans live
        exact .inr (.inr (.inl ⟨q, _, body, Machine.object?_put_self (old _)⟩))
      · exact .inl ((Machine.object?_put_of_ne same).trans (old _))
  | collect may =>
      cases after : (({ m with heap := (m.heap.collect m.roots).2 } : Machine).object? x) with
      | none => exact .inr (.inr (.inr ⟨may, rfl⟩))
      | some p =>
          have same : m.object? x = some p := Heap.get?_of_get?_collect after
          exact .inl (same.symm.trans before)
  | _ => exact .inl before

/-- What lives and is an exception after a change was one before. -/
theorem exception_before (change : Change g m m') (tidy : m.heap.Tidy) {x : ObjId}
    (live : m.Live x) {o' : Object} (after : m'.object? x = some o') {message : String}
    (body : o'.body = .exception message) :
    ∃ o, m.object? x = some o ∧ o.body = .exception message := by
  rcases change.object?_before tidy after with same | ⟨o, before, how, -⟩ |
    ⟨o, p, env, -, -, -, -, rfl⟩ | ⟨dead, -⟩
  · exact ⟨o', same, body⟩
  · exact ⟨o, before, how.exception_before body⟩
  · cases body
  · obtain ⟨o, before⟩ := live.object?
    cases before.symm.trans dead

/-- Only a collection ends the life of an object. -/
theorem live (change : Change g m m') (tidy : m.heap.Tidy) {x : ObjId} (live : m.Live x) :
    m'.Live x ∨ g.sweeps = true := by
  cases change with
  | alloc o => exact .inl (Machine.live_withNew tidy o live)
  | touch => exact .inl (Machine.live_put live)
  | attach => exact .inl (Machine.live_put (Machine.live_withNew tidy _ live))
  | collect may => exact .inr may
  | _ => exact .inl live

/-- What a live object names afterwards was not collected. -/
theorem live_of_named (change : Change g m m') (tidy : m.heap.Tidy) {x y : ObjId} {o : Object}
    (after : m'.object? x = some o) (named : y ∈ o.references) (live : m.Live y) : m'.Live y := by
  cases change with
  | alloc o => exact Machine.live_withNew tidy o live
  | touch => exact Machine.live_put live
  | attach => exact Machine.live_put (Machine.live_withNew tidy _ live)
  | collect =>
      obtain ⟨p, present⟩ := live.object?
      exact .of_object? (Heap.get?_collect_of_reference tidy after named present)
  | _ => exact live

theorem handed_live (change : Change g m m') (tidy : m.heap.Tidy)
    (handed : ∀ x ∈ g.ids, m.Live x) : ∀ x ∈ g.ids, m'.Live x := by
  intro x member
  cases change with
  | alloc o => exact Machine.live_withNew tidy o (handed x member)
  | touch => exact Machine.live_put (handed x member)
  | attach => exact Machine.live_put (Machine.live_withNew tidy _ (handed x member))
  | collect _ alone => rw [alone] at member; cases member
  | _ => exact handed x member

@[simp] theorem handle_eq (change : Change g m m') : m'.handle = m.handle := by
  cases change <;> rfl

@[simp] theorem config_eq (change : Change g m m') : m'.config = m.config := by
  cases change <;> rfl

end Change

namespace Evolution

variable {g : Grant} {m m' : Machine}

theorem tidy (evolution : Evolution g m m') (tidy : m.heap.Tidy) : m'.heap.Tidy := by
  induction evolution with
  | refl => exact tidy
  | tail _ change ih => exact change.tidy ih

theorem handle_eq (evolution : Evolution g m m') : m'.handle = m.handle := by
  induction evolution with
  | refl => rfl
  | tail _ change ih => exact change.handle_eq.trans ih

theorem config_eq (evolution : Evolution g m m') : m'.config = m.config := by
  induction evolution with
  | refl => rfl
  | tail _ change ih => exact change.config_eq.trans ih

/-- A property that changes keep while what was handed over is alive. -/
theorem preserves {P : Machine → Prop}
    (step : ∀ a b, Change g a b → a.heap.Tidy → (∀ x ∈ g.ids, a.Live x) → P a → P b)
    (evolution : Evolution g m m') (tidy : m.heap.Tidy) (handed : ∀ x ∈ g.ids, m.Live x)
    (holds : P m) : P m' ∧ ∀ x ∈ g.ids, m'.Live x := by
  induction evolution with
  | refl => exact ⟨holds, handed⟩
  | tail before change ih =>
      have middle := Evolution.tidy before tidy
      exact ⟨step _ _ change middle ih.2 ih.1, change.handed_live middle ih.2⟩

end Evolution

end GuestVM
