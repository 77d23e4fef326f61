import GuestVM.Document
import GuestVM.Text.Quoted

/-! # Writing documents

The JSON text of a document, without blanks.  How a float is written is a parameter. -/
set_option autoImplicit false

namespace GuestVM.Document

/-- One character between quotes.  Characters that end a line are written by their numbers. -/
def writtenChar (c : Char) : String :=
  if c = '"' then "\\\""
  else if c = '\\' then "\\\\"
  else if c.toNat < 0x20 ∨ c.toNat = 0x85 ∨ c.toNat = 0x2028 ∨ c.toNat = 0x2029 then
    "\\u" ++ Text.hexPadded 4 c.toNat
  else c.toString

def writtenString (s : String) : String :=
  "\"" ++ s.toList.foldl (fun acc c => acc ++ writtenChar c) "" ++ "\""

mutual

def write (float : Binary64 → String) : Document → String
  | .null => "null"
  | .bool b => toString b
  | .int n => toString n
  | .float x => float x
  | .str s => writtenString s
  | .arr items => "[" ++ ",".intercalate (writeItems float items) ++ "]"
  | .obj members => "\x7b" ++ ",".intercalate (writeMembers float members) ++ "\x7d"

def writeItems (float : Binary64 → String) : List Document → List String
  | [] => []
  | d :: rest => write float d :: writeItems float rest

def writeMembers (float : Binary64 → String) : List (String × Document) → List String
  | [] => []
  | (name, d) :: rest =>
    (writtenString name ++ ":" ++ write float d) :: writeMembers float rest

end

end GuestVM.Document
