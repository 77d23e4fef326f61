import GuestVM.Script

/-! # Tables of host callables

A host callable is a script with the form in which it takes its arguments and the discipline by
which it hands on errors.  A table numbers the callables registered in it; numbers are never used
twice, so a number whose callable was removed leads nowhere.  `Tables` holds one table per instance
index. -/
set_option autoImplicit false

namespace GuestVM

structure Callable where
  form : Form
  discipline : Discipline
  /-- What a call runs; a free callable gets the array of arguments, a bound one `nil`. -/
  body : CallContext → Value → Script

/-- A form as diagnostics show it. -/
def Form.text : Form → String
  | .bound => "HostCallable::Method"
  | .free => "HostCallable::Proc"

structure CallableSlot where
  index : Nat
  aspec : Aspec
  callable : Callable

namespace CallableSlot

def form (s : CallableSlot) : Form := s.callable.form

/-- Whether the callable reads its arguments from the running call. -/
def bindsSelf (s : CallableSlot) : Bool := s.form == .bound

end CallableSlot

structure CallableTable where
  slots : Array (Option CallableSlot) := #[]

namespace CallableTable

def register (t : CallableTable) (c : Callable) (aspec : Aspec) : Nat × CallableTable :=
  let index := t.slots.size
  (index, ⟨t.slots.push (some { index := index, aspec := aspec, callable := c })⟩)

def get? (t : CallableTable) (function : Nat) : Option CallableSlot := t.slots[function]?.join

/-- Takes a callable out; its number stays used. -/
def remove (t : CallableTable) (function : Nat) : Option CallableSlot × CallableTable :=
  (t.get? function, ⟨t.slots.setIfInBounds function none⟩)

def count (t : CallableTable) : Nat := t.slots.toList.countP (·.isSome)

def isEmpty (t : CallableTable) : Bool := t.count == 0

end CallableTable

/-! ## The tables of all instances -/

structure Tables where
  rows : List (Nat × CallableTable) := []

namespace Tables

/-- The table of an index; an index nothing was registered under has none. -/
def table? (t : Tables) (index : Nat) : Option CallableTable := t.rows.lookup index

def put (t : Tables) (index : Nat) (table : CallableTable) : Tables :=
  ⟨(index, table) :: t.rows.filter (·.1 != index)⟩

def register (t : Tables) (index : Nat) (c : Callable) (aspec : Aspec) : Nat × Tables :=
  let (function, table) := ((t.table? index).getD {}).register c aspec
  (function, t.put index table)

def lookup (t : Tables) (index function : Nat) : Option CallableSlot :=
  (t.table? index).bind (·.get? function)

/-- Takes a callable out and says whether there was one. -/
def unregister (t : Tables) (index function : Nat) : Bool × Tables :=
  match t.table? index with
  | some table =>
    let (removed, table) := table.remove function
    (removed.isSome, t.put index table)
  | none => (false, t)

def count (t : Tables) (index : Nat) : Nat := ((t.table? index).map (·.count)).getD 0

def drop (t : Tables) (index : Nat) : Tables := ⟨t.rows.filter (·.1 != index)⟩

end Tables

end GuestVM
