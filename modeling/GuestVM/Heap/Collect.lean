import GuestVM.Heap
import GuestVM.Number.Ascending

/-! # Collection

A collection marks what the roots and the arena reach and frees every other slot.  Marking takes one
id after another off a stack of work.  A live object without a mark gets one, and what it refers to is
put on the stack; dead ids and marked objects are passed over, so that each object is entered once,
whatever cycles it lies on.  The sweep takes the marks off again and adds the slots that it frees to
the empty ones.

`Reachable` says what a collection has to keep, without mention of marks or work. -/
set_option autoImplicit false

namespace GuestVM

/-! ## Marking -/

/-- How much work a slot can still become: an object without a mark, and what it refers to. -/
def Cell.weight (c : Cell) : Nat := if c.marked then 0 else c.object.references.length + 1

/-- The sum of what the items of a list weigh. -/
def total {α : Type} (weigh : α → Nat) : List α → Nat
  | [] => 0
  | a :: rest => weigh a + total weigh rest

theorem total_modify {α : Type} (weigh : α → Nat) (f : α → α) {items : List α} {i : Nat} {a : α}
    (found : items[i]? = some a) :
    total weigh (items.modify i f) + weigh a = total weigh items + weigh (f a) := by
  induction items generalizing i with
  | nil => simp at found
  | cons first rest ih =>
      cases i with
      | zero =>
          cases found
          simp only [List.modify_zero_cons, total]
          omega
      | succ i =>
          have inner := ih (by simpa using found)
          simp only [List.modify_succ_cons, total]
          omega

namespace Heap

def weight (h : Heap) : Nat := total (fun slot => (slot.map Cell.weight).getD 0) h.slots.toList

def setMark (h : Heap) (id : ObjId) : Heap :=
  { h with slots := h.slots.modify id.slot (Option.map fun c => { c with marked := true }) }

theorem weight_setMark {h : Heap} {id : ObjId} {c : Cell} (found : h.cell? id = some c)
    (unmarked : c.marked = false) :
    (h.setMark id).weight + c.object.references.length + 1 = h.weight := by
  have slot : h.slots.toList[id.slot]? = some (some c) := by
    simpa using Option.join_eq_some_iff.mp found
  have weights := total_modify (fun slot => (slot.map Cell.weight).getD 0)
    (Option.map fun c => { c with marked := true }) slot
  simp only [Option.map_some, Option.getD_some, Cell.weight, unmarked, Bool.false_eq_true, if_true,
    if_false] at weights
  rw [weight, weight, setMark, Array.toList_modify]
  omega

/-- Marks what a stack of work leads to. -/
def mark (h : Heap) : List ObjId → Heap
  | [] => h
  | id :: work =>
    match _ : h.cell? id with
    | none => h.mark work
    | some c =>
      if _ : c.marked then h.mark work
      else (h.setMark id).mark (c.object.references.reverse ++ work)
termination_by work => h.weight + work.length
decreasing_by
  · simp
  · simp
  · have lighter := weight_setMark ‹h.cell? id = some c› (by simpa using ‹¬c.marked = true›)
    simp only [List.length_append, List.length_reverse, List.length_cons]
    omega

/-! ## Sweeping -/

/-- A slot after the sweep. -/
def sweptSlot (slot : Option Cell) : Option Cell :=
  (slot.filter (·.marked)).map fun c => { c with marked := false }

/-- The slots that the sweep frees. -/
def unmarkedSlots (h : Heap) : List Nat :=
  (List.range h.slots.size).filter fun i => h.slots[i]?.join.any (!·.marked)

/-- Also gives how many objects there were in the slots that it frees. -/
def sweep (h : Heap) : Nat × Heap :=
  let freed := h.unmarkedSlots
  (freed.length, { h with
    slots := h.slots.map sweptSlot
    free := ascending (freed ++ h.free)
    live := h.live - freed.length
    collections := h.collections + 1 })

/-- The stack that marking starts with: the end of the arena is on top. -/
def startingWork (h : Heap) (roots : List ObjId) : List ObjId := (roots ++ h.arena.toList).reverse

/-- Frees what neither the roots nor the arena reach and says how many objects that were; refused
while collection is suspended. -/
def collect (h : Heap) (roots : List ObjId) : Option Nat × Heap :=
  if h.isSuspended then (none, h)
  else
    let swept := (h.mark (h.startingWork roots)).sweep
    (some swept.1, swept.2)

/-! ## What has to be kept -/

/-- Live objects reached from some roots along references. -/
inductive Reachable (h : Heap) (roots : List ObjId) : ObjId → Prop where
  | root {id : ObjId} {o : Object} : id ∈ roots → h.get? id = some o → Reachable h roots id
  | step {a b : ObjId} {o p : Object} : Reachable h roots a → h.get? a = some o →
      b ∈ o.references → h.get? b = some p → Reachable h roots b

end Heap

end GuestVM
