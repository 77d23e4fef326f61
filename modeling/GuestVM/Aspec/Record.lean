import GuestVM.Aspec
import GuestVM.Document

/-! # Argument descriptors as documents

A descriptor is read from its bits, or from a list of parts that are joined; it is written field by
field. -/
set_option autoImplicit false

namespace GuestVM.Aspec

def countOf (d : Document) : UInt32 := d.size.toUInt32

/-- One part of a descriptor: its name and its counts. -/
def partOf? (d : Document) : Option Aspec :=
  match d.items with
  | [.str "none"] => some .none
  | [.str "any"] => some .any
  | [.str "rest"] => some .rest
  | [.str "block"] => some .block
  | [.str "req", n] => some (.req (countOf n))
  | [.str "opt", n] => some (.opt (countOf n))
  | [.str "post", n] => some (.post (countOf n))
  | [.str "arg", n, k] => some (.arg (countOf n) (countOf k))
  | [.str "key", n, dict] => some (.key (countOf n) dict.isTrue)
  | [.str "bits", n] => some ⟨countOf n⟩
  | _ => Option.none

/-- A descriptor; `null` stands for any arguments. -/
def ofDocument? : Document → Option Aspec
  | .null => some .any
  | .int n => some ⟨n.toNat.toUInt32⟩
  | .arr parts => parts.foldlM (fun a d => (partOf? d).map (a ||| ·)) .none
  | _ => Option.none

def members (a : Aspec) : List (String × Document) :=
  [("bits", .ofNat a.bits.toNat), ("none", .bool a.isNone), ("req", .ofNat a.required.toNat),
   ("opt", .ofNat a.optional.toNat), ("rest", .bool a.hasRest),
   ("post", .ofNat a.postCount.toNat), ("key", .ofNat a.keyCount.toNat),
   ("kdict", .bool a.hasKeyDict), ("block", .bool a.hasBlock), ("debug", .str a.text)]

end GuestVM.Aspec
