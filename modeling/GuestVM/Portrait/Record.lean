import GuestVM.Document
import GuestVM.Portrait
import GuestVM.Text.Utf8

/-! # Portraits as documents

The form in which a portrait leaves the program.  Immediates stand for themselves; an object becomes
an object with its id, tag and class, and what its kind adds. -/
set_option autoImplicit false

namespace GuestVM

def Text.hexOfBytes (bytes : List UInt8) : String :=
  String.join (bytes.map fun b => Text.hexPadded 2 b.toNat)

/-- Bytes as the text that they are, or else in hexadecimal. -/
def Document.ofBytes (bytes : List UInt8) : Document :=
  .str ((Text.decode? bytes).getD (Text.hexOfBytes bytes))

/-- What a value is taken for where it is looked at as a value of one type; `symbolName` is the name
of a value that is a symbol. -/
def Value.facts (v : Value) (tag : ValueType) (symbolName : Option String) : Document :=
  .ofMembers
    [("type", .str tag.name), ("truthy", .bool v.truthy), ("nil", .bool v.isNil),
      ("immediate", .bool v.isImmediate), ("int", .ofOption (fun n => .int n.toInt) v.asInt),
      ("float", .ofOption .float v.asFloat), ("sym", .ofOption .str symbolName),
      ("obj", .ofOption (fun id => .str id.text) v.asObj)]

namespace Portrait

def idMembers (id : ObjId) (tag : String) : List (String × Document) :=
  [("id", .int id.slot), ("t", .str tag)]

/-- A live object: what all have, and what its kind adds. -/
def record (id : ObjId) (tag : ValueType) (className : String) (frozen : Bool)
    (more : List (String × Document)) : Document :=
  .ofMembers (idMembers id tag.name ++ ("cls", .str className)
    :: (if frozen then [("frozen", .bool true)] else []) ++ more)

/-- An immediate that is no symbol. -/
def plainDocument : Value → Document
  | .bool b => .bool b
  | .int n => .int n.toInt
  | .float x => .float x
  | .undefined => .ofMembers [("undef", .bool true)]
  | _ => .null

mutual

def document : Portrait → Document
  | .plain v => plainDocument v
  | .symbol name => .ofMembers [("sym", .str name)]
  | .dead id => .ofMembers (idMembers id "dead")
  | .outline id tag => .ofMembers (idMembers id tag.name)
  | .object id tag c f => record id tag c f []
  | .classLike id tag c f name => record id tag c f [("name", .str name)]
  | .proc id c f flags e target =>
    record id .proc c f
      [("flags", .int flags), ("env", optionDocument e), ("target", .ofOption .str target)]
  | .array id c f size items =>
    record id .array c f [("len", .int size), ("items", .arr (documents items))]
  | .hash id c f size entries =>
    record id .hash c f [("len", .int size), ("entries", .arr (entryDocuments entries))]
  | .string id c f bytes =>
    record id .string c f
      [match Text.decode? bytes with
        | some s => ("s", .str s)
        | none => ("hex", .str (Text.hexOfBytes bytes))]
  | .range id c f first last exclusive =>
    record id .range c f
      [("begin", document first), ("end", document last), ("excl", .bool exclusive)]
  | .exception id c f message => record id .exception c f [("msg", .str message)]
  | .env id c f isShared values =>
    record id .env c f [("shared", .bool isShared), ("values", .arr (documents values))]
  | .istruct id c f word => record id .istruct c f [("word", .int word.toInt)]

def optionDocument : Option Portrait → Document
  | some p => document p
  | none => .null

def documents : List Portrait → List Document
  | [] => []
  | p :: rest => document p :: documents rest

def entryDocuments : List (Portrait × Portrait) → List Document
  | [] => []
  | (k, v) :: rest => .arr [document k, document v] :: entryDocuments rest

end

end Portrait

end GuestVM
