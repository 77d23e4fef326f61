import GuestVM.Proofs.Machine.Defining

/-! # Names of classes

What a value's class, its methods and its name depend on. -/
set_option autoImplicit false

namespace GuestVM

namespace Machine

variable {m m' : Machine}

theorem chain_congr (slots : m'.heap.slots = m.heap.slots) (n : Nat) (c : ObjId) :
    m'.chain n c = m.chain n c := by
  induction n generalizing c with
  | zero => rfl
  | succ n ih =>
      have parent : m'.superclass? c = m.superclass? c := by
        simp only [superclass?, classData?, object?, Heap.get?, Heap.cell?, slots]
      simp only [chain, parent, ih]

theorem classOf_congr (slots : m'.heap.slots = m.heap.slots) (v : Value) :
    m'.classOf v = m.classOf v := by
  cases v with
  | obj id => simp only [classOf, object?, Heap.get?, Heap.cell?, slots]
  | bool b => cases b <;> rfl
  | _ => rfl

theorem lineage_congr (slots : m'.heap.slots = m.heap.slots) (c : ObjId) :
    m'.lineage c = m.lineage c := by
  rw [lineage, lineage, slots, chain_congr slots]

theorem climb_congr {β : Type} {ask ask' : ObjId → Option β} (slots : m'.heap.slots = m.heap.slots)
    (same : ask' = ask) (c : ObjId) : m'.climb ask' c = m.climb ask c := by
  subst same
  have parents : m'.superclass? = m.superclass? := by
    funext d
    simp only [superclass?, classData?, object?, Heap.get?, Heap.cell?, slots]
  have within : ∀ n d, m'.climbWithin ask' n d = m.climbWithin ask' n d := by
    intro n
    induction n with
    | zero => exact fun _ => rfl
    | succ n ih =>
        intro d
        simp only [climbWithin, parents, ih]
  rw [climb, climb, slots, within]

theorem findMethod_congr (slots : m'.heap.slots = m.heap.slots) (c : ObjId) (mid : Sym) :
    m'.findMethod c mid = m.findMethod c mid := by
  simp only [findMethod_eq, lineage_congr slots, ownMethod?, classData?, object?, Heap.get?,
    Heap.cell?, slots]

theorem isKindOf_congr (slots : m'.heap.slots = m.heap.slots) (v : Value) (c : ObjId) :
    m'.isKindOf v c = m.isKindOf v c := by
  simp only [isKindOf, descendsFrom_eq, classOf_congr slots, lineage_congr slots]

theorem realClassOf?_congr (slots : m'.heap.slots = m.heap.slots) (v : Value) :
    m'.realClassOf? v = m.realClassOf? v := by
  have passed : ∀ d, m'.isPassedOver d = m.isPassedOver d := by
    intro d
    simp only [isPassedOver, classData?, object?, Heap.get?, Heap.cell?, slots]
  have asks : m'.realAt = m.realAt := by
    funext d
    simp only [realAt, passed]
  rw [realClassOf?, realClassOf?, classOf_congr slots, climb_congr slots asks]

theorem realClassOf_congr (slots : m'.heap.slots = m.heap.slots) (v : Value) :
    m'.realClassOf v = m.realClassOf v := by
  rw [realClassOf, realClassOf, realClassOf?_congr slots, classOf_congr slots]

theorem classNameBy_congr (slots : m'.heap.slots = m.heap.slots) (symbols : m'.symbols = m.symbols)
    (text : Value → Option String) (c : ObjId) : m'.classNameBy text c = m.classNameBy text c := by
  simp only [classNameBy, classData?, object?, Heap.get?, Heap.cell?, slots, symName, symbols]

theorem inspectWithin_congr (slots : m'.heap.slots = m.heap.slots)
    (symbols : m'.symbols = m.symbols) (n : Nat) (v : Value) :
    m'.inspectWithin n v = m.inspectWithin n v := by
  induction n generalizing v with
  | zero => rfl
  | succ n ih =>
      cases v with
      | sym s => simp only [inspectWithin, symName, symbols]
      | obj id =>
          have body : m'.body? (.obj id) = m.body? (.obj id) := by
            simp only [body?, object?, Heap.get?, Heap.cell?, slots]
          have parts : m'.inspectWithin n = m.inspectWithin n := funext ih
          simp only [inspectWithin, body, parts, classNameBy_congr slots symbols,
            realClassOf?_congr slots]
      | _ => rfl

/-- The name of a value's class depends on the objects and the symbols alone. -/
theorem realClassName_congr (slots : m'.heap.slots = m.heap.slots)
    (symbols : m'.symbols = m.symbols) (v : Value) : m'.realClassName v = m.realClassName v := by
  have texts : m'.inspect = m.inspect := by
    funext w
    simp only [inspect, slots, inspectWithin_congr slots symbols]
  simp only [realClassName, className, texts, classNameBy_congr slots symbols,
    realClassOf?_congr slots]

theorem typeOf_congr (slots : m'.heap.slots = m.heap.slots) (v : Value) :
    m'.typeOf v = m.typeOf v := by
  cases v with
  | obj id => simp only [typeOf, object?, Heap.get?, Heap.cell?, slots]
  | bool b => cases b <;> rfl
  | _ => rfl

theorem exceptionMessage_congr (slots : m'.heap.slots = m.heap.slots) (v : Value) :
    m'.exceptionMessage v = m.exceptionMessage v := by
  simp only [exceptionMessage, body?, object?, Heap.get?, Heap.cell?, slots]

end Machine

end GuestVM
