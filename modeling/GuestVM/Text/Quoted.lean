import GuestVM.Text.Property

/-! # Text between quotes

The written form of a text in messages.  Quotes and backslashes get a backslash, NUL and the three
common control characters their letters; a character that attaches to the one before it, or that
has no picture of its own, is written by its hexadecimal number; everything else stands for itself,
the apostrophe included. -/
set_option autoImplicit false

namespace GuestVM.Text

/-- The digits of `n` in lower-case hexadecimal, no leading zeros. -/
def hexDigits (n : Nat) : String := String.ofList (Nat.toDigits 16 n)

/-- `n` in lower-case hexadecimal with at least `width` digits. -/
def hexPadded (width n : Nat) : String :=
  let digits := Nat.toDigits 16 n
  String.ofList (List.replicate (width - digits.length) '0' ++ digits)

def numbered (c : Char) : String := "\\u\x7b" ++ hexDigits c.toNat ++ "\x7d"

def quotedChar (c : Char) : String :=
  match c with
  | '\x00' => "\\0"
  | '\t' => "\\t"
  | '\r' => "\\r"
  | '\n' => "\\n"
  | '"' => "\\\""
  | '\\' => "\\\\"
  | c =>
    if c.toNat < 0x7F ∧ 0x20 ≤ c.toNat then c.toString
    else if isExtending c || isHidden c then numbered c
    else c.toString

def quoted (s : String) : String :=
  "\"" ++ String.join (s.toList.map quotedChar) ++ "\""

end GuestVM.Text
