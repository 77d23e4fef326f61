import GuestVM.Machine.Strings

/-! # Hashes

A hash keeps its entries in the order in which their keys came.  Strings are keys by content: an
unfrozen one is copied and the copy frozen, so no later write can move a key. -/
set_option autoImplicit false

namespace GuestVM

namespace Machine

def hashKey (m : Machine) (key : Value) : HashKey :=
  match key with
  | .nil => .nil
  | .bool b => .bool b
  | .int n => .int n
  | .float x => .float x.bits
  | .sym s => .sym s
  | .undefined => .undefined
  | .obj id =>
    match m.body? key with
    | some (.string bytes) => .str bytes
    | _ => .obj id

/-- The table of a hash; any other value has an empty one. -/
def table (m : Machine) (h : Value) : HashTable :=
  match m.body? h with
  | some (.hash t) => t
  | _ => .empty

/-! ## Walks -/

def beginWalk (m : Machine) : Machine := { m with heap := m.heap.beginWalk }

def endWalk (m : Machine) : Machine := { m with heap := m.heap.endWalk }

def removeEntry (m : Machine) (hash : Value) (position : Nat) : Machine :=
  match hash.asObj with
  | some id =>
    { m with heap := m.heap.modify id fun o =>
        match o.body with
        | .hash t => { o with body := .hash (t.removeAt position) }
        | _ => o }
  | none => m

end Machine

namespace Act

def hashNew : Act Value := do
  return .obj (← alloc { cls := Builtin.hash.id, body := .hash .empty })

def hashTable (h : Value) : Act HashTable := do
  let _ ← expectType h .hash
  return (← get).table h

/-- The key as a hash stores it. -/
def storedKey (key : Value) : Act Value := do
  let m ← get
  if m.typeOf key = .string ∧ !m.isFrozen key then
    let copy ← stringNew (m.bytes key)
    freeze copy
    return copy
  else return key

def hashSet (h key v : Value) : Act Unit := do
  let id ← expectType h .hash
  checkFrozen h
  let key ← storedKey key
  let m ← get
  setBody id (.hash ((m.table h).insert (m.hashKey key) key v))

def hashGet (h key : Value) : Act (Option Value) := do
  let t ← hashTable h
  return t.get? ((← get).hashKey key)

def hashDelete (h key : Value) : Act (Option Value) := do
  let id ← expectType h .hash
  checkFrozen h
  let m ← get
  let (removed, rest) := (m.table h).erase (m.hashKey key)
  setBody id (.hash rest)
  return removed

def hashLen (h : Value) : Act Nat := do
  return (← hashTable h).size

def hashEntries (h : Value) : Act (List (Value × Value)) := do
  return (← hashTable h).entries.toList

def hashKeys (h : Value) : Act (List Value) := do
  return (← hashEntries h).map (·.1)

def hashValues (h : Value) : Act (List Value) := do
  return (← hashEntries h).map (·.2)

def hashClear (h : Value) : Act Unit := do
  let id ← expectType h .hash
  checkFrozen h
  setBody id (.hash .empty)

end Act

end GuestVM
