import GuestVM.Object

/-! # The object heap

Objects live in numbered slots.  `alloc` fills the lowest empty slot, or a new one at the end, and
puts the id on the arena: a list of ids that count as roots, so that an object survives until
something reachable holds it.  Callers that allocate much note the arena's length and cut it back
later.  Collection is refused while it is disabled or a walk is under way. -/
set_option autoImplicit false

namespace GuestVM

/-- What is in a slot: an object, and whether the collection under way has reached it. -/
structure Cell where
  object : Object
  marked : Bool := false

structure Heap where
  slots : Array (Option Cell) := #[]
  /-- The empty slots, lowest first. -/
  free : List Nat := []
  arena : Array ObjId := #[]
  live : Nat := 0
  disabled : Bool := false
  walks : Nat := 0
  collections : Nat := 0

namespace Heap

def empty : Heap := {}

/-! ## Reading -/

def cell? (h : Heap) (id : ObjId) : Option Cell := h.slots[id.slot]?.join

/-- The object of an id, unless it is dead. -/
def get? (h : Heap) (id : ObjId) : Option Object := (h.cell? id).map (·.object)

def isMarked (h : Heap) (id : ObjId) : Bool := (h.cell? id).any (·.marked)

def isDead (h : Heap) (id : ObjId) : Bool := (h.get? id).isNone

/-- The ids of the live objects, lowest first. -/
def liveIds (h : Heap) : List ObjId :=
  (List.range h.slots.size).filterMap fun i => (h.get? ⟨i⟩).map fun _ => ⟨i⟩

/-! ## Writing -/

/-- Gives an object the lowest empty slot. -/
def alloc (h : Heap) (o : Object) : ObjId × Heap :=
  match h.free with
  | i :: rest =>
    (⟨i⟩, { h with
      slots := h.slots.setIfInBounds i (some { object := o })
      free := rest
      live := h.live + 1
      arena := h.arena.push ⟨i⟩ })
  | [] =>
    let id : ObjId := ⟨h.slots.size⟩
    (id, { h with
      slots := h.slots.push (some { object := o })
      live := h.live + 1
      arena := h.arena.push id })

def modify (h : Heap) (id : ObjId) (f : Object → Object) : Heap :=
  { h with slots := h.slots.modify id.slot (Option.map fun c => { c with object := f c.object }) }

/-! ## The arena -/

def arenaSave (h : Heap) : Nat := h.arena.size

/-- Cuts the arena back to a length. -/
def arenaRestore (h : Heap) (mark : Nat) : Heap := { h with arena := h.arena.take mark }

def arenaPush (h : Heap) (id : ObjId) : Heap := { h with arena := h.arena.push id }

/-! ## Suspending collection -/

/-- Also gives the previous setting. -/
def setDisabled (h : Heap) (disabled : Bool) : Bool × Heap :=
  (h.disabled, { h with disabled := disabled })

def beginWalk (h : Heap) : Heap := { h with walks := h.walks + 1 }

def endWalk (h : Heap) : Heap := { h with walks := h.walks - 1 }

/-- Whether a collection would be refused now. -/
def isSuspended (h : Heap) : Bool := h.disabled || h.walks != 0

end Heap

end GuestVM
