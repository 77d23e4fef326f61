/-! # Bytes read as text

Strings of the guest are byte sequences and need not be UTF-8.  `decode` reads one byte at a time:
between characters nothing is owed, inside a character a state holds the bits read so far, how many
continuation bytes are owed, and the bounds of the next one.  A byte that cannot follow ends the
character begun before it with U+FFFD and is then read as a first byte, so every maximal ill-formed
piece becomes one replacement character.  `decode?` is the strict reading. -/
set_option autoImplicit false

namespace GuestVM.Text

/-- A character begun: the bits so far, the bytes still owed after the next one, and the bounds of
the next one. -/
structure Begun where
  bits : Nat
  owed : Nat
  low : UInt8
  high : UInt8
  deriving DecidableEq

inductive Lead where
  | whole (c : Char)
  | begun (b : Begun)
  | stray
  deriving DecidableEq

/-- Reads `b` as a first byte. -/
def Lead.ofByte (b : UInt8) : Lead :=
  if b < 0x80 then .whole (Char.ofNat b.toNat)
  else if b < 0xC2 then .stray
  else if b < 0xE0 then .begun ⟨b.toNat % 32, 0, 0x80, 0xBF⟩
  else if b = 0xE0 then .begun ⟨0, 1, 0xA0, 0xBF⟩
  else if b = 0xED then .begun ⟨13, 1, 0x80, 0x9F⟩
  else if b < 0xF0 then .begun ⟨b.toNat % 16, 1, 0x80, 0xBF⟩
  else if b = 0xF0 then .begun ⟨0, 2, 0x90, 0xBF⟩
  else if b < 0xF4 then .begun ⟨b.toNat % 8, 2, 0x80, 0xBF⟩
  else if b = 0xF4 then .begun ⟨4, 2, 0x80, 0x8F⟩
  else .stray

/-- The character that stands for an ill-formed piece. -/
def replacement : Char := '\uFFFD'

/-- One piece of decoded text: a character, or an ill-formed piece. -/
abbrev Piece := Option Char

/-- The pieces of a byte sequence, from a state. -/
def pieces : Option Begun → List UInt8 → List Piece
  | none, [] => []
  | some _, [] => [none]
  | none, b :: rest =>
    match Lead.ofByte b with
    | .whole c => some c :: pieces none rest
    | .begun s => pieces (some s) rest
    | .stray => none :: pieces none rest
  | some s, b :: rest =>
    if s.low ≤ b ∧ b ≤ s.high then
      let bits := s.bits * 64 + b.toNat % 64
      match s.owed with
      | 0 => some (Char.ofNat bits) :: pieces none rest
      | n + 1 => pieces (some ⟨bits, n, 0x80, 0xBF⟩) rest
    else
      match Lead.ofByte b with
      | .whole c => none :: some c :: pieces none rest
      | .begun t => none :: pieces (some t) rest
      | .stray => none :: none :: pieces none rest

/-- Text of any bytes: each ill-formed piece becomes U+FFFD. -/
def decode (bytes : List UInt8) : String :=
  String.ofList ((pieces none bytes).map (·.getD replacement))

def decode? (bytes : List UInt8) : Option String :=
  ((pieces none bytes).mapM id).map String.ofList

def encode (s : String) : List UInt8 :=
  s.toUTF8.data.toList

end GuestVM.Text
