import GuestVM.Number.Ascending
import GuestVM.Value

/-! # Instance indices

Each machine linked to host code has an index, a small positive number; index 0 stands for machines
without one.  `IndexAllocator` gives indices out: fresh ones first, and once more than
`reuseThreshold` have been given out, the smallest released one where there is one.  `Registry` says
which machine has which index.

Registration and its undoing are each two steps, for a look-up need not hold the allocator: `find`
then `enrol`, `withdraw` then `release`. -/
set_option autoImplicit false

namespace GuestVM

/-! ## The allocator -/

/-- How many indices are given out before released ones are used again. -/
def reuseThreshold : Nat := 500

structure IndexAllocator where
  next : Nat := 1
  /-- Released indices, smallest first. -/
  freed : List Nat := []
  deriving DecidableEq, Inhabited

namespace IndexAllocator

def allocate (a : IndexAllocator) : Nat × IndexAllocator :=
  match a.freed with
  | i :: rest =>
    if reuseThreshold < a.next - 1 then (i, { a with freed := rest })
    else (a.next, { a with next := a.next + 1 })
  | [] => (a.next, { a with next := a.next + 1 })

/-- Takes an index back; one that was never given out is ignored. -/
def release (a : IndexAllocator) (i : Nat) : IndexAllocator :=
  if i ≠ 0 ∧ i < a.next then { a with freed := insertAscending i a.freed } else a

end IndexAllocator

/-! ## The registry -/

structure Registry where
  allocator : IndexAllocator := {}
  rows : List (Handle × Nat) := []
  deriving DecidableEq, Inhabited

namespace Registry

def find (r : Registry) (h : Handle) : Option Nat := r.rows.lookup h

/-- The index of a machine, 0 when it has none. -/
def indexOf (r : Registry) (h : Handle) : Nat := (r.find h).getD 0

/-- Gives a machine an index unless it has got one meanwhile. -/
def enrol (r : Registry) (h : Handle) : Nat × Registry :=
  match r.find h with
  | some i => (i, r)
  | none =>
    let (i, allocator) := r.allocator.allocate
    (i, { allocator := allocator, rows := (h, i) :: r.rows })

/-- Forgets a machine, without releasing its index. -/
def withdraw (r : Registry) (h : Handle) : Option Nat × Registry :=
  (r.find h, { r with rows := r.rows.filter (·.1 != h) })

def release (r : Registry) (i : Nat) : Registry :=
  { r with allocator := r.allocator.release i }

/-- The index of a machine, a new one if it has none. -/
def register (r : Registry) (h : Handle) : Nat × Registry :=
  match r.find h with
  | some i => (i, r)
  | none => r.enrol h

def unregister (r : Registry) (h : Handle) : Option Nat × Registry :=
  match r.withdraw h with
  | (some i, r) => (some i, r.release i)
  | (none, r) => (none, r)

def size (r : Registry) : Nat := r.rows.length

end Registry

end GuestVM
