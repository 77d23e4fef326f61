import GuestVM.Machine.Basic

/-! # Superclass chains

Method lookup, constant lookup and kinship all follow the superclass chain of a class: the class
itself, its superclass, and so on, up to a class without one.  `climb` asks one class of a chain after
the other and stops at the first that has an answer.  A chain may go in a circle, once ids of dead
objects have been handed over as classes; a climb that finds no answer there goes on for ever and
gives nothing.  A climb past more classes than the heap has slots has come to one of them twice, so
that many decide.

Each question has two forms: what the machine comes to, if it comes to anything (`findMethod?`), and
what it finds, where a search without end finds nothing (`findMethod`). -/
set_option autoImplicit false

namespace GuestVM.Machine

def classData? (m : Machine) (c : ObjId) : Option ClassData :=
  match m.object? c with
  | some { body := .class data, .. } => some data
  | _ => none

def superclass? (m : Machine) (c : ObjId) : Option ObjId :=
  (m.classData? c).bind (·.superclass)

/-- `p` is the superclass of the class `c`. -/
def Superclass (m : Machine) (p c : ObjId) : Prop := m.superclass? c = some p

/-- Asks the classes of a chain one after the other, at most `n` of them. -/
def climbWithin {α : Type} (m : Machine) (ask : ObjId → Option α) : Nat → ObjId → Option (Option α)
  | 0, _ => none
  | n + 1, c =>
    match ask c with
    | some x => some (some x)
    | none =>
      match m.superclass? c with
      | some p => m.climbWithin ask n p
      | none => some none

/-- The first answer on the chain of a class, `none` at the end of a chain without one. -/
def climb {α : Type} (m : Machine) (ask : ObjId → Option α) (c : ObjId) : Option (Option α) :=
  m.climbWithin ask (m.heap.slots.size + 1) c

/-! ## The class of a value -/

/-- The class where method lookup begins, singleton classes included. -/
def classOf (m : Machine) : Value → ObjId
  | .nil => Builtin.nilClass.id
  | .bool true => Builtin.trueClass.id
  | .bool false => Builtin.falseClass.id
  | .int _ => Builtin.integer.id
  | .float _ => Builtin.float.id
  | .sym _ => Builtin.symbol.id
  | .undefined => Builtin.object.id
  | .obj id => ((m.object? id).map (·.cls)).getD Builtin.object.id

/-- Whether a class is a singleton class with a superclass, which `realClassOf` passes over. -/
def isPassedOver (m : Machine) (c : ObjId) : Bool :=
  match m.classData? c with
  | some { kind := .singleton _, superclass := some _, .. } => true
  | _ => false

def realAt (m : Machine) (c : ObjId) : Option ObjId := if m.isPassedOver c then none else some c

def realClassOf? (m : Machine) (v : Value) : Option ObjId :=
  (m.climb m.realAt (m.classOf v)).map (·.getD (m.classOf v))

/-- The class of a value, singleton classes left out. -/
def realClassOf (m : Machine) (v : Value) : ObjId := (m.realClassOf? v).getD (m.classOf v)

def sameAt (ancestor c : ObjId) : Option Unit := if c = ancestor then some () else none

def descendsFrom? (m : Machine) (c ancestor : ObjId) : Option Bool :=
  (m.climb (sameAt ancestor) c).map (·.isSome)

/-- Whether `ancestor` is on the chain of `c`. -/
def descendsFrom (m : Machine) (c ancestor : ObjId) : Bool := (m.descendsFrom? c ancestor).getD false

def isKindOf? (m : Machine) (v : Value) (c : ObjId) : Option Bool := m.descendsFrom? (m.classOf v) c

def isKindOf (m : Machine) (v : Value) (c : ObjId) : Bool := m.descendsFrom (m.classOf v) c

/-! ## Lookup along the chain -/

def ownMethod? (m : Machine) (c : ObjId) (mid : Sym) : Option Method :=
  (m.classData? c).bind (·.methods.get? mid)

def findMethod? (m : Machine) (c : ObjId) (mid : Sym) : Option (Option Method) :=
  m.climb (m.ownMethod? · mid) c

/-- The method a class answers to a symbol with: the first on its chain. -/
def findMethod (m : Machine) (c : ObjId) (mid : Sym) : Option Method := (m.findMethod? c mid).join

/-- Whether a value answers to a name; a name never interned is no method's. -/
def respondTo? (m : Machine) (v : Value) (name : String) : Option Bool :=
  match m.symbols.check name with
  | some mid => (m.findMethod? (m.classOf v) mid).map (·.isSome)
  | none => some false

def respondTo (m : Machine) (v : Value) (name : String) : Bool := (m.respondTo? v name).getD false

def ownConst? (m : Machine) (c : ObjId) (s : Sym) : Option Value :=
  (m.classData? c).bind (·.consts.get? s)

/-- The constant of a class; at what is no class the search ends without a constant. -/
def constAt (m : Machine) (s : Sym) (c : ObjId) : Option (Option Value) :=
  match m.classData? c with
  | some data => (data.consts.get? s).map some
  | none => some none

/-- The constant a name stands for in a class: along its chain, then in `Object`. -/
def lookupConst? (m : Machine) (c : ObjId) (name : String) : Option (Option Value) :=
  match m.symbols.check name with
  | some s => (m.climb (m.constAt s) c).map (·.getD (m.ownConst? Builtin.object.id s))
  | none => some none

def lookupConst (m : Machine) (c : ObjId) (name : String) : Option Value :=
  (m.lookupConst? c name).join

def classGet (m : Machine) (name : String) : Option ObjId := do
  let s ← m.symbols.check name
  let v ← m.ownConst? Builtin.object.id s
  if (m.typeOf v).isClassLike then v.asObj else none

def methodNames (m : Machine) (c : ObjId) : List String :=
  match m.classData? c with
  | some data => data.methods.keys.map m.symName
  | none => []

end GuestVM.Machine
