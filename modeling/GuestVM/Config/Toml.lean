import GuestVM.Config

/-! # Configurations as TOML text

A configuration document is a TOML document whose root table holds settings with unsigned 64-bit
integers and nothing else; a setting that is not there keeps its default.  So of TOML only the
documents made of blank lines, comments and `key = integer` lines can be configurations, and
`Config.ofToml?` reads exactly those: bare, basic and literal keys, the four integer notations with
underscores between digits, comments, and both line ends.  Every other document is refused, and so
is one that sets a key twice. -/
set_option autoImplicit false

namespace GuestVM.Toml

/-! ## Lexical classes -/

def isBlank (c : Char) : Bool := c == ' ' || c == '\t'

/-- Characters that comments and quoted keys may hold: no control characters but the tab. -/
def isPlain (c : Char) : Bool := c == '\t' || (0x20 ≤ c.toNat && c.toNat != 0x7F)

def isBare (c : Char) : Bool := c.isAlphanum || c == '_' || c == '-'

def digitValue? (base : Nat) (c : Char) : Option Nat :=
  let d :=
    if c.isDigit then c.toNat - '0'.toNat
    else if 'a' ≤ c ∧ c ≤ 'f' then c.toNat - 'a'.toNat + 10
    else if 'A' ≤ c ∧ c ≤ 'F' then c.toNat - 'A'.toNat + 10
    else base
  if d < base then some d else none

/-! ## Integers -/

/-- Digits of a base with single underscores between them, most significant first. -/
def digits? (base : Nat) : List Char → Option (List Nat)
  | [] => none
  | [c] => (digitValue? base c).map ([·])
  | c :: '_' :: rest => do
    let d ← digitValue? base c
    return d :: (← digits? base rest)
  | c :: rest => do
    let d ← digitValue? base c
    return d :: (← digits? base rest)

def natural? (base : Nat) (cs : List Char) : Option Nat :=
  (digits? base cs).map fun ds => ds.foldl (fun n d => n * base + d) 0

/-- Decimal digits: no zero in front of others. -/
def decimal? : List Char → Option Nat
  | ['0'] => some 0
  | '0' :: _ => none
  | cs => natural? 10 cs

/-- An integer of any size; only decimal ones have a sign. -/
def integer? : List Char → Option Int
  | '0' :: 'x' :: rest => (natural? 16 rest).map Int.ofNat
  | '0' :: 'o' :: rest => (natural? 8 rest).map Int.ofNat
  | '0' :: 'b' :: rest => (natural? 2 rest).map Int.ofNat
  | '+' :: rest => (decimal? rest).map Int.ofNat
  | '-' :: rest => (decimal? rest).map fun n => -(n : Int)
  | rest => (decimal? rest).map Int.ofNat

/-- The integer as the word of a setting, if it is in range. -/
def word? (n : Int) : Option UInt64 :=
  if 0 ≤ n ∧ n.toNat < UInt64.size then some n.toNat.toUInt64 else none

/-! ## Keys -/

/-- The character of `width` hexadecimal digits, and what follows them. -/
def unicode? (width : Nat) (cs : List Char) : Option (Char × List Char) := do
  guard (width ≤ cs.length)
  let ds ← (cs.take width).mapM (digitValue? 16)
  let n := ds.foldl (fun n d => n * 16 + d) 0
  guard (n.isValidChar)
  return (Char.ofNat n, cs.drop width)

/-- The character of an escape sequence, given what follows the backslash. -/
def escape? : List Char → Option (Char × List Char)
  | 'b' :: rest => some ('\x08', rest)
  | 't' :: rest => some ('\t', rest)
  | 'n' :: rest => some ('\n', rest)
  | 'f' :: rest => some ('\x0c', rest)
  | 'r' :: rest => some ('\r', rest)
  | 'e' :: rest => some ('\x1b', rest)
  | '"' :: rest => some ('"', rest)
  | '\\' :: rest => some ('\\', rest)
  | 'x' :: rest => unicode? 2 rest
  | 'u' :: rest => unicode? 4 rest
  | 'U' :: rest => unicode? 8 rest
  | _ => none

/-- A basic string after its opening quote, and what follows the closing one; at most `fuel`
characters long. -/
def basic? : Nat → List Char → Option (List Char × List Char)
  | 0, _ => none
  | _ + 1, [] => none
  | _ + 1, '"' :: rest => some ([], rest)
  | fuel + 1, '\\' :: rest => do
    let (c, rest) ← escape? rest
    let (cs, rest) ← basic? fuel rest
    return (c :: cs, rest)
  | fuel + 1, c :: rest => do
    guard (isPlain c)
    let (cs, rest) ← basic? fuel rest
    return (c :: cs, rest)

/-- A literal string after its opening quote, and what follows the closing one. -/
def literal? : List Char → Option (List Char × List Char)
  | [] => none
  | '\'' :: rest => some ([], rest)
  | c :: rest => do
    guard (isPlain c)
    let (cs, rest) ← literal? rest
    return (c :: cs, rest)

/-- A key, and what follows it. -/
def key? (cs : List Char) : Option (String × List Char) := do
  let (name, rest) ← match cs with
    | '"' :: rest => basic? (rest.length + 1) rest
    | '\'' :: rest => literal? rest
    | _ => do
      guard (!(cs.takeWhile isBare).isEmpty)
      some (cs.takeWhile isBare, cs.dropWhile isBare)
  return (String.ofList name, rest)

/-! ## Lines and documents -/

inductive Line where
  | blank
  | setting (s : Setting) (n : UInt64)
  deriving DecidableEq

/-- Nothing but blanks and a comment. -/
def isRemainder (cs : List Char) : Bool :=
  match cs.dropWhile isBlank with
  | [] => true
  | '#' :: comment => comment.all isPlain
  | _ => false

def line? (cs : List Char) : Option Line :=
  if isRemainder cs then some .blank
  else do
    let (name, rest) ← key? (cs.dropWhile isBlank)
    match rest.dropWhile isBlank with
    | '=' :: rest =>
      let body := rest.dropWhile isBlank
      let isWord := fun c => !isBlank c && c != '#'
      guard (isRemainder (body.dropWhile isWord))
      let n ← word? (← integer? (body.takeWhile isWord))
      return .setting (← Setting.ofName? name) n
    | _ => none

/-- The lines of a document; a carriage return right before a line feed belongs to the line end. -/
def lines : List Char → List (List Char)
  | [] => [[]]
  | '\n' :: rest => [] :: lines rest
  | '\r' :: '\n' :: rest => [] :: lines rest
  | c :: rest =>
    match lines rest with
    | [] => [[c]]
    | l :: ls => (c :: l) :: ls

/-- The setting of a line, if it has one. -/
def Line.setting? : Line → Option (Setting × UInt64)
  | .blank => none
  | .setting s n => some (s, n)

/-- Whether no setting occurs twice. -/
def isDistinct (found : List (Setting × UInt64)) : Bool :=
  decide (found.map Prod.fst).Nodup

/-- The characters of a document, without a byte order mark. -/
def body (text : String) : List Char :=
  match text.toList with
  | '\uFEFF' :: rest => rest
  | cs => cs

/-- Settings in order, each at most once. -/
def settings? (text : String) : Option (List (Setting × UInt64)) := do
  let ls ← (lines (body text)).mapM line?
  let found := ls.filterMap Line.setting?
  if isDistinct found then some found else none

end GuestVM.Toml

def GuestVM.Config.ofToml? (text : String) : Option GuestVM.Config :=
  (GuestVM.Toml.settings? text).map fun found => found.foldl (fun c (s, n) => c.put s n) {}
