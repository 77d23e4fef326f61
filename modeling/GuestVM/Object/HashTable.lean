import GuestVM.Value

/-! # Ordered hash tables

The table of a guest hash: entries in the order in which their keys were first inserted, with a key
identity beside each entry and an index from identities to positions.  Strings are identified by
their bytes, floats by their bits, other objects by their ids.  Three containers are kept in step:
`keys` runs parallel to `entries`, and `index` holds the position of every key.

`view` reads a table as a list of identity, key and value; the laws of the operations are stated
through it. -/
set_option autoImplicit false

namespace GuestVM

/-- The identity of a key. -/
inductive HashKey where
  | nil
  | bool (b : Bool)
  | int (n : Int64)
  | float (bits : UInt64)
  | sym (s : Sym)
  | str (bytes : List UInt8)
  | obj (id : ObjId)
  | undefined
  deriving DecidableEq, Inhabited

structure HashTable where
  entries : Array (Value × Value) := #[]
  keys : Array HashKey := #[]
  index : List (HashKey × Nat) := []
  deriving DecidableEq, Inhabited

namespace HashTable

def empty : HashTable := {}

def size (t : HashTable) : Nat := t.entries.size

def isEmpty (t : HashTable) : Bool := t.size == 0

def position (t : HashTable) (k : HashKey) : Option Nat := t.index.lookup k

/-- A present key keeps its place and its key object and gets the new value; a new one goes to the
end. -/
def insert (t : HashTable) (k : HashKey) (key value : Value) : HashTable :=
  match t.position k with
  | some p => { t with entries := t.entries.modify p fun e => (e.1, value) }
  | none =>
    { entries := t.entries.push (key, value)
      keys := t.keys.push k
      index := (k, t.entries.size) :: t.index }

def indexOf (keys : Array HashKey) : List (HashKey × Nat) := keys.toList.zipIdx

/-- Takes out the entry at a position; later entries move up. -/
def removeAt (t : HashTable) (p : Nat) : HashTable :=
  let keys := t.keys.eraseIdxIfInBounds p
  { entries := t.entries.eraseIdxIfInBounds p
    keys := keys
    index := indexOf keys }

def entryAt? (t : HashTable) (p : Nat) : Option (Value × Value) := t.entries[p]?

def get? (t : HashTable) (k : HashKey) : Option Value := do
  let p ← t.position k
  return (← t.entryAt? p).2

def erase (t : HashTable) (k : HashKey) : Option Value × HashTable :=
  match t.position k with
  | some p => ((t.entryAt? p).map (·.2), t.removeAt p)
  | none => (none, t)

/-- The table as a list of identities, keys and values. -/
def view (t : HashTable) : List (HashKey × Value × Value) :=
  t.keys.toList.zip t.entries.toList

end HashTable

end GuestVM
