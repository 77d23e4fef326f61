/-! # Argument descriptors

How many arguments a host callable takes, packed into 32 bits: five-bit counts of required,
optional, trailing and keyword arguments, and flags for a rest argument, a keyword dictionary and a
block.  Descriptors are combined by joining their bits.  `accepts` decides whether a number of
positional arguments fits. -/
set_option autoImplicit false

namespace GuestVM

structure Aspec where
  bits : UInt32
  deriving DecidableEq, Inhabited

namespace Aspec

/-! ## Building descriptors -/

/-- A five-bit count at a bit position; higher bits of the count are dropped. -/
def count (n position : UInt32) : Aspec := ⟨(n &&& 0x1f) <<< position⟩

/-- No arguments. -/
def none : Aspec := ⟨0⟩

def req (n : UInt32) : Aspec := count n 18
def opt (n : UInt32) : Aspec := count n 13
def rest : Aspec := ⟨0x1000⟩
def post (n : UInt32) : Aspec := count n 7
def block : Aspec := ⟨1⟩

def join (a b : Aspec) : Aspec := ⟨a.bits ||| b.bits⟩

instance : OrOp Aspec := ⟨join⟩

def arg (required optional : UInt32) : Aspec := req required ||| opt optional

def key (n : UInt32) (dict : Bool) : Aspec := count n 2 ||| ⟨if dict then 2 else 0⟩

def any : Aspec := rest

/-! ## Reading descriptors -/

def field (a : Aspec) (position : UInt32) : UInt32 := (a.bits >>> position) &&& 0x1f

def flag (a : Aspec) (mask : UInt32) : Bool := a.bits &&& mask != 0

def isNone (a : Aspec) : Bool := a.bits == 0
def required (a : Aspec) : UInt32 := a.field 18
def optional (a : Aspec) : UInt32 := a.field 13
def hasRest (a : Aspec) : Bool := a.flag 0x1000
def postCount (a : Aspec) : UInt32 := a.field 7
def keyCount (a : Aspec) : UInt32 := a.field 2
def hasKeyDict (a : Aspec) : Bool := a.flag 2
def hasBlock (a : Aspec) : Bool := a.flag 1

def least (a : Aspec) : Nat := a.required.toNat + a.postCount.toNat

/-- Whether `argc` positional arguments fit. -/
def accepts (a : Aspec) (argc : Nat) : Bool :=
  a.least ≤ argc && (a.hasRest || argc ≤ a.least + a.optional.toNat)

/-- The descriptor as diagnostics show it. -/
def text (a : Aspec) : String :=
  "Aspec \x7b req: " ++ toString a.required.toNat ++ ", opt: " ++ toString a.optional.toNat
    ++ ", rest: " ++ toString a.hasRest ++ ", post: " ++ toString a.postCount.toNat
    ++ ", key: " ++ toString a.keyCount.toNat ++ ", block: " ++ toString a.hasBlock ++ " \x7d"

end Aspec

end GuestVM
