/-! # Powers of two and ten

The natural powers of the two bases that the encoding and the written form of a float are built
on. -/
set_option autoImplicit false

namespace GuestVM

def twoTo (n : Nat) : Nat := Nat.pow 2 n

def tenTo (n : Nat) : Nat := Nat.pow 10 n

end GuestVM
