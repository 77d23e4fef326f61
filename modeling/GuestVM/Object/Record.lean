import GuestVM.Document
import GuestVM.Object
import GuestVM.Text.Utf8

/-! # Objects as documents

A body given by the name of its kind and the ids that it is to hold, enough to build any graph of
objects; a table key given by the immediate or text that it identifies; the names of edits; and the
short form in which an object is listed. -/
set_option autoImplicit false

namespace GuestVM

def SymMap.ofOption {α : Type} : Option α → SymMap α
  | some x => SymMap.empty.insert ⟨0⟩ x
  | none => {}

/-- Adds ids in turn as keys and values; a last key alone has the value 1. -/
def HashTable.insertIds (t : HashTable) : List ObjId → HashTable
  | [] => t
  | [k] => t.insert (.obj k) (.obj k) (.int 1)
  | k :: v :: rest => (t.insert (.obj k) (.obj k) (.obj v)).insertIds rest

/-- A class that holds a superclass, the value it is attached to, a method and a constant, as far as
there are ids for them. -/
def ClassData.ofIds (ids : List ObjId) : ClassData :=
  { name := none
    superclass := ids[0]?
    kind := ((ids[1]?).map fun a => ClassKind.singleton (.obj a)).getD .plain
    methods := .ofOption ((ids[2]?).map fun p => ⟨p, false⟩)
    consts := .ofOption ((ids[3]?).map Value.obj) }

/-- A body of a kind that holds some ids; kinds that hold none leave them out. -/
def Body.ofIds (kind : String) (ids : List ObjId) : Body :=
  let values := ids.map Value.obj
  match kind with
  | "array" => .array values.toArray
  | "string" => .string []
  | "range" => .range ⟨values[0]?.getD .nil, values[1]?.getD .nil, false⟩
  | "env" => .env values.toArray false
  | "istruct" => .istruct 0
  | "hash" => .hash (HashTable.empty.insertIds ids)
  | "class" => .class (.ofIds ids)
  | _ => .object

/-- The identity of a key and the key; a text has no key of its own. -/
def HashKey.ofDocument : Document → HashKey × Value
  | .bool b => (.bool b, .bool b)
  | .int n => (.int (Int64.ofInt n), .int (Int64.ofInt n))
  | .str s => (.str (Text.encode s), .nil)
  | _ => (.nil, .nil)

def Edit.named : List (String × Edit) :=
  [("unfreeze", .thaw), ("object", .toObject), ("istruct", .toIStruct 1),
   ("string", .toString (Text.encode "swapped")), ("array", .toArray), ("hash", .toHash)]

def Object.document (o : Object) : Document :=
  .ofMembers
    [("type", .str o.tag.name), ("class", .ofNat o.cls.slot), ("frozen", .bool o.frozen)]

end GuestVM
