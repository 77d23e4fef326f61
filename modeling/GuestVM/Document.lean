import GuestVM.Number.Binary64
import GuestVM.Number.Word

/-! # Documents

The values of JSON: the form in which structured data comes from the host and goes back to it.
Numbers are integers or floats and the two stay apart.  An object's members are kept in the order of
their names, each name once. -/
set_option autoImplicit false

namespace GuestVM

inductive Document where
  | null
  | bool (b : Bool)
  | int (n : Int)
  | float (x : Binary64)
  | str (s : String)
  | arr (items : List Document)
  | obj (members : List (String × Document))
  deriving Inhabited

/-! ## Members -/

abbrev Members := List (String × Document)

/-- Adds a member in its place; a member of the same name is replaced. -/
def Members.insert (name : String) (d : Document) : Members → Members
  | [] => [(name, d)]
  | (n, e) :: rest =>
    if name < n then (name, d) :: (n, e) :: rest
    else if n < name then (n, e) :: Members.insert name d rest
    else (name, d) :: rest

namespace Document

def ofMembers (members : List (String × Document)) : Document :=
  .obj (members.foldl (fun ms (name, d) => Members.insert name d ms) [])

def ofOption {α : Type} (f : α → Document) : Option α → Document
  | some x => f x
  | none => .null

def ofNat (n : Nat) : Document := .int n

/-! ## Looking into documents -/

/-- A member of an object; anything else, and a missing member, is `null`. -/
def field (d : Document) (name : String) : Document :=
  match d with
  | .obj members => (members.lookup name).getD .null
  | _ => .null

/-- The items of an array; anything else has none. -/
def items : Document → List Document
  | .arr xs => xs
  | _ => []

def text? : Document → Option String
  | .str s => some s
  | _ => none

def int? : Document → Option Int
  | .int n => some n
  | _ => none

def word? (d : Document) : Option Int64 := d.int?.bind Word.checked

/-- An integer that is not negative. -/
def size? (d : Document) : Option Nat :=
  d.int?.bind fun n => if 0 ≤ n then some n.toNat else none

def size (d : Document) : Nat := d.size?.getD 0

def isTrue : Document → Bool
  | .bool b => b
  | _ => false

def isNull : Document → Bool
  | .null => true
  | _ => false

end Document

end GuestVM
