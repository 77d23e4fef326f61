import GuestVM.Document.Reader
import GuestVM.HostType

/-! # Host data as documents

Host data read from documents and written as such.  A float to be read is
given by the bits of its encoding in hexadecimal, so that every float can be given; guest values
have no form of their own here. -/
set_option autoImplicit false

namespace GuestVM

def Binary64.ofHex? (digits : String) : Option Binary64 :=
  (Document.hexNumber digits.toList).map fun n => ⟨n.toUInt64⟩

def Text.bytesOfPairs? : List Char → Option (List UInt8)
  | [] => some []
  | a :: b :: rest => do
    return (← Document.hexNumber [a, b]).toUInt8 :: (← Text.bytesOfPairs? rest)
  | _ => none

def Text.bytesOfHex? (digits : String) : Option (List UInt8) := Text.bytesOfPairs? digits.toList

namespace HostType

/-- Host data of a type; nothing if the document has another form. -/
def read? : (t : HostType) → Document → Option t.Carrier
  | .unit, _ => some ()
  | .bool, .bool b => some b
  | .int64, d => d.word?
  | .int32, d => d.word?.map (·.toInt32)
  | .size, d => d.size?.map (·.toUInt64)
  | .float, d => d.text?.bind Binary64.ofHex?
  | .text, d => d.text?
  | .option _, .null => some none
  | .option t, d => (read? t d).map some
  | .list t, .arr xs => List.mapM (read? t) xs
  | .document, d => some d
  | _, _ => none

def write : (t : HostType) → t.Carrier → Document
  | .unit, _ => .str "unit"
  | .bool, b => .bool b
  | .int64, n => .int n.toInt
  | .int32, n => .int n.toInt
  | .size, n => .int n.toNat
  | .float, x => .float x
  | .text, s => .str s
  | .option _, none => .null
  | .option t, some x => write t x
  | .list t, xs => .arr (List.map (write t) xs)
  | .document, d => d
  | .value, _ => .null

end HostType

end GuestVM
