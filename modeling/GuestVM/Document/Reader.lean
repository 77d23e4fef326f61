import GuestVM.Document

/-! # Reading documents

A document is read from its JSON text.  A number without fraction and exponent that a word holds is
an integer; every other number is a float: the digits of the significand that a word holds, scaled
by a power of ten in float arithmetic, so the last bit of a long number need not be the nearest one.
`-0` is a float, for no integer has a sign of its own there.

Each reader takes what is left of the text and gives what it read and what is then left. -/
set_option autoImplicit false

namespace GuestVM.Document

abbrev Read (α : Type) := Option (α × List Char)

def isBlank (c : Char) : Bool := c == ' ' || c == '\t' || c == '\n' || c == '\r'

def skipBlanks (cs : List Char) : List Char := cs.dropWhile isBlank

/-! ## Numbers -/

def ofFloat (negative : Bool) (f : Float) : Document :=
  .float ⟨(if negative then -f else f).toBits⟩

def greatestPower : Nat := 308

/-- `f` divided by the greatest power until the exponent is in reach, at most `n` times. -/
def scaleDown : Nat → Float → Int → Option Float
  | 0, _, _ => some 0.0
  | n + 1, f, exponent =>
    if exponent.natAbs ≤ greatestPower then
      some (f / Float.ofScientific 1 false exponent.natAbs)
    else if f == 0.0 then some f
    else scaleDown n (f / Float.ofScientific 1 false greatestPower) (exponent + greatestPower)

/-- `f` times a power of ten; a number too large for a float is refused. -/
def scale (f : Float) (exponent : Int) : Option Float :=
  if exponent < 0 then scaleDown 8 f exponent
  else if f == 0.0 then some f
  else if exponent.toNat ≤ greatestPower then
    let g := f * Float.ofScientific 1 false exponent.toNat
    if g.isInf then none else some g
  else none

/-- The digits read so far: as much of the significand as a word holds, the power of ten it is to
be scaled by, and whether digits were left out. -/
structure Digits where
  significand : Nat := 0
  exponent : Int := 0
  full : Bool := false

def digitValue (c : Char) : Nat := c.toNat - '0'.toNat

/-- One more digit, whose place is `step` powers of ten from the last; a digit that does not fit
changes the exponent by `missed` instead. -/
def Digits.add (step missed : Int) (d : Digits) (c : Char) : Digits :=
  let s := d.significand * 10 + digitValue c
  if d.full ∨ twoTo 64 ≤ s then { d with exponent := d.exponent + missed, full := true }
  else { d with significand := s, exponent := d.exponent + step }

def floatOf (negative : Bool) (significand : Nat) (exponent : Int) : Option Document :=
  (scale (Float.ofNat significand) exponent).map (ofFloat negative)

def exponentLimit : Nat := 2147483647

/-- A float from its significand on; an exponent is next. -/
def readExponent (negative : Bool) (d : Digits) (cs : List Char) : Read Document :=
  let (down, cs) := match cs with
    | '-' :: rest => (true, rest)
    | '+' :: rest => (false, rest)
    | rest => (false, rest)
  let digits := cs.takeWhile Char.isDigit
  let rest := cs.dropWhile Char.isDigit
  let size := digits.foldl (fun n c => n * 10 + digitValue c) 0
  if digits.isEmpty then none
  else if exponentLimit < size then
    if d.significand ≠ 0 ∧ !down then none else some (ofFloat negative 0.0, rest)
  else
    (floatOf negative d.significand (if down then d.exponent - size else d.exponent + size)).map
      fun x => (x, rest)

/-- A float from its significand on; an exponent may be next. -/
def readFloat (negative : Bool) (d : Digits) (cs : List Char) : Read Document :=
  match cs with
  | 'e' :: rest | 'E' :: rest => readExponent negative d rest
  | rest => (floatOf negative d.significand d.exponent).map fun x => (x, rest)

/-- A float from its point on.  Digits that do not fit are left out. -/
def readFraction (negative : Bool) (d : Digits) (cs : List Char) : Read Document :=
  let digits := cs.takeWhile Char.isDigit
  if digits.isEmpty then none
  else
    let d := digits.foldl (Digits.add (-1) 0) { d with full := false }
    readFloat negative d (cs.dropWhile Char.isDigit)

/-- A number without fraction and exponent. -/
def ofDigits (negative : Bool) (n : Nat) : Document :=
  if !negative then .int n
  else if n = 0 ∨ twoTo 63 < n then ofFloat true (Float.ofNat n)
  else .int (-n)

def readNumber (cs : List Char) : Read Document :=
  let (negative, cs) := match cs with
    | '-' :: rest => (true, rest)
    | rest => (false, rest)
  let digits := cs.takeWhile Char.isDigit
  if digits.isEmpty ∨ (digits.head? = some '0' ∧ 1 < digits.length) then none
  else
    let d : Digits := digits.foldl (Digits.add 0 1) {}
    match cs.dropWhile Char.isDigit with
    | '.' :: rest => readFraction negative d rest
    | 'e' :: rest | 'E' :: rest => readExponent negative d rest
    | rest =>
      if d.full then readFloat negative d rest else some (ofDigits negative d.significand, rest)

/-! ## Texts -/

def hexValue (c : Char) : Option Nat :=
  if c.isDigit then some (digitValue c)
  else if 'a' ≤ c ∧ c ≤ 'f' then some (c.toNat - 'a'.toNat + 10)
  else if 'A' ≤ c ∧ c ≤ 'F' then some (c.toNat - 'A'.toNat + 10)
  else none

def hexNumber (cs : List Char) : Option Nat :=
  cs.foldlM (fun n c => (hexValue c).map (n * 16 + ·)) 0

def escaped? : Char → Option Char
  | 'n' => some '\n'
  | 't' => some '\t'
  | 'r' => some '\r'
  | 'b' => some '\x08'
  | 'f' => some '\x0c'
  | '"' => some '"'
  | '\\' => some '\\'
  | '/' => some '/'
  | _ => none

/-- What a number of 16 bits means after a first half of a pair, or after none. -/
def unit? (pending : Option Nat) (u : Nat) : Option (Char ⊕ Nat) :=
  let isLow := 0xDC00 ≤ u ∧ u < 0xE000
  match pending with
  | some high =>
    if isLow then some (.inl (Char.ofNat (0x10000 + (high - 0xD800) * 0x400 + (u - 0xDC00))))
    else none
  | none =>
    if 0xD800 ≤ u ∧ u < 0xDC00 then some (.inr u)
    else if isLow then none
    else some (.inl (Char.ofNat u))

/-- The characters up to the closing quote, after the first half of a pair or none. -/
def readText : Option Nat → List Char → Read (List Char)
  | pending, '\\' :: 'u' :: a :: b :: c :: d :: rest =>
    match (hexNumber [a, b, c, d]).bind (unit? pending) with
    | some (.inl x) => (readText none rest).map fun (xs, rest) => (x :: xs, rest)
    | some (.inr high) => readText (some high) rest
    | none => none
  | none, '\\' :: c :: rest =>
    match escaped? c with
    | some x => (readText none rest).map fun (xs, rest) => (x :: xs, rest)
    | none => none
  | none, '"' :: rest => some ([], rest)
  | none, c :: rest =>
    if c.toNat < 0x20 then none
    else (readText none rest).map fun (xs, rest) => (c :: xs, rest)
  | _, _ => none

def readString (cs : List Char) : Read String :=
  (readText none cs).map fun (xs, rest) => (String.ofList xs, rest)

/-! ## Documents -/

def readWord (word : List Char) (d : Document) (cs : List Char) : Read Document :=
  if word.isPrefixOf cs then some (d, cs.drop word.length) else none

mutual

/-- A document; readers nest less than `n` deep. -/
def readValue : Nat → List Char → Read Document
  | 0, _ => none
  | n + 1, cs =>
    match skipBlanks cs with
    | '"' :: rest => (readString rest).map fun (s, rest) => (.str s, rest)
    | '[' :: rest =>
      match skipBlanks rest with
      | ']' :: rest => some (.arr [], rest)
      | rest => (readItems n rest).map fun (xs, rest) => (.arr xs, rest)
    | '\x7b' :: rest =>
      match skipBlanks rest with
      | '\x7d' :: rest => some (.obj [], rest)
      | rest => (readMembers n [] rest).map fun (ms, rest) => (.obj ms, rest)
    | 't' :: rest => readWord "rue".toList (.bool true) rest
    | 'f' :: rest => readWord "alse".toList (.bool false) rest
    | 'n' :: rest => readWord "ull".toList .null rest
    | rest => readNumber rest

/-- The items of an array, up to its end. -/
def readItems : Nat → List Char → Read (List Document)
  | 0, _ => none
  | n + 1, cs =>
    match readValue n cs with
    | none => none
    | some (d, rest) =>
      match skipBlanks rest with
      | ',' :: rest => (readItems n rest).map fun (xs, rest) => (d :: xs, rest)
      | ']' :: rest => some ([d], rest)
      | _ => none

/-- The members of an object, up to its end, after some members. -/
def readMembers : Nat → Members → List Char → Read Members
  | 0, _, _ => none
  | n + 1, members, cs =>
    match skipBlanks cs with
    | '"' :: rest =>
      match readString rest with
      | none => none
      | some (name, rest) =>
        match skipBlanks rest with
        | ':' :: rest =>
          match readValue n rest with
          | none => none
          | some (d, rest) =>
            match skipBlanks rest with
            | ',' :: rest => readMembers n (members.insert name d) rest
            | '\x7d' :: rest => some (members.insert name d, rest)
            | _ => none
        | _ => none
    | _ => none

end

/-- The document that a text is.  Of two nested readers at least one takes a character, so they nest
no deeper than twice the length and a little more. -/
def read? (text : String) : Option Document :=
  let cs := text.toList
  match readValue (2 * cs.length + 2) cs with
  | some (d, rest) => if (skipBlanks rest).isEmpty then some d else none
  | none => none

end GuestVM.Document
