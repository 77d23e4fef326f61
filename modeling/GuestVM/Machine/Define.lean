import GuestVM.Machine.Raise

/-! # Definitions

Making classes and modules, and filling their tables: methods, constants, variables.  Every class
has a singleton class, made together with it, whose superclass is the singleton class of its
superclass; other objects get theirs when it is first asked for.  Checks come before writes, so a
definition that raises has changed nothing. -/
set_option autoImplicit false

namespace GuestVM.Act

/-! ## Tables of a class -/

/-- Changes the tables of a class; anything else stays as it is. -/
def onClass (c : ObjId) (f : ClassData → ClassData) : Act Unit :=
  onHeap fun h => h.modify c fun o =>
    match o.body with
    | .class data => { o with body := .class (f data) }
    | _ => o

def putConst (c : ObjId) (s : Sym) (v : Value) : Act Unit :=
  onClass c fun data => { data with consts := data.consts.insert s v }

/-! ## Classes and modules -/

/-- A class or module that nothing is bound to yet; an empty name is no name. -/
def newClass (name : String) (superclass : Option ObjId) (kind : ClassKind) : Act ObjId := do
  let s ← if name.isEmpty then pure none else some <$> intern name
  let own := if kind = .module then Builtin.module else Builtin.classClass
  alloc
    { cls := own.id
      body := .class { name := s, superclass := superclass, kind := kind } }

/-- Whether `c` is the singleton class of `v`. -/
def isSingletonOf (m : Machine) (c : ObjId) (v : Value) : Bool :=
  match m.classData? c with
  | some { kind := .singleton attached, .. } => attached.same v
  | _ => false

/-- The singleton class of a value, made if need be, as are those of at most `n` superclasses. -/
def singletonWithin : Nat → Value → Act ObjId
  | 0, _ => throw .endless
  | n + 1, v => do
    let m ← get
    match v.asObj.bind fun id => (m.object? id).map fun o => (id, o) with
    | none => fail .typeError "can't define singleton"
    | some (id, o) =>
      if isSingletonOf m o.cls v then return o.cls
      let superclass ← match m.classData? id with
        | some { kind := .plain, superclass := some parent, .. } =>
          singletonWithin n (.obj parent)
        | _ => pure o.cls
      let s ← alloc
        { cls := Builtin.classClass.id
          body := .class { name := none, superclass := some superclass, kind := .singleton v } }
      onHeap fun h => h.modify id fun o => { o with cls := s }
      return s

def singletonClass (v : Value) : Act ObjId := do
  singletonWithin ((← get).heap.slots.size + 1) v

/-- Makes a class under a name, or gives the one that has it. -/
def defineClass (outer : ObjId) (name : String) (superclass : Option ObjId) : Act ObjId := do
  let s ← intern name
  let m ← get
  match m.ownConst? outer s with
  | some bound =>
    if m.typeOf bound ≠ .plainClass then fail .typeError (name ++ " is not a class")
    let id ← expectClass bound
    match superclass with
    | some parent =>
      if m.superclass? id ≠ some parent then
        fail .typeError ("superclass mismatch for class " ++ name)
      return id
    | none => return id
  | none =>
    let parent := superclass.getD Builtin.object.id
    if m.typeOf (.obj parent) ≠ .plainClass then fail .typeError "superclass must be a Class"
    let id ← newClass name (some parent) .plain
    let _ ← singletonClass (.obj id)
    putConst outer s (.obj id)
    return id

/-- Makes a module under a name, or gives the one that has it. -/
def defineModule (outer : ObjId) (name : String) : Act ObjId := do
  let s ← intern name
  let m ← get
  match m.ownConst? outer s with
  | some bound =>
    if m.typeOf bound ≠ .module then fail .typeError (name ++ " is not a module")
    expectClass bound
  | none =>
    let id ← newClass name none .module
    putConst outer s (.obj id)
    return id

/-! ## Methods -/

/-- A proc after it was installed: its first class becomes its target. -/
def ProcData.installed (p : ProcData) (c : ObjId) (noArg : Bool) : ProcData :=
  let p := if p.target.isNone then
      { p with target := some c, flags := { p.flags with hasTarget := true } }
    else p
  if noArg then { p with flags := { p.flags with noArg := true } } else p

def defineMethod (c : ObjId) (mid : Sym) (method : Method) : Act Unit := do
  let _ ← expectClass (.obj c)
  checkFrozen (.obj c)
  onHeap fun h => h.modify method.proc fun o =>
    match o.body with
    | .proc p => { o with body := .proc (ProcData.installed p c method.noArg) }
    | _ => o
  onClass c fun data => { data with methods := data.methods.insert mid method }

/-- Ends with the error for a method that a class does not have. -/
def missingMethod {α : Type} (c : ObjId) (mid : Sym) : Act α := do
  let m ← get
  let name ← ofOption (m.className c)
  fail .nameError
    ("undefined method '" ++ m.symName mid ++ "' for class '" ++ name ++ "'")

def undefMethod (c : ObjId) (mid : Sym) : Act Unit := do
  checkFrozen (.obj c)
  let m ← get
  match (m.classData? c).bind (·.methods.get? mid) with
  | some _ => onClass c fun data => { data with methods := data.methods.erase mid }
  | none => missingMethod c mid

/-- Installs the method that `old` finds now under another name too. -/
def aliasMethod (c : ObjId) (new old : Sym) : Act Unit := do
  match ← ofOption ((← get).findMethod? c old) with
  | some method => defineMethod c new method
  | none => missingMethod c old

/-! ## Constants and variables -/

def constSet (c : ObjId) (name : String) (v : Value) : Act Unit := do
  let _ ← expectClass (.obj c)
  checkFrozen (.obj c)
  putConst c (← intern name) v

def constGet (c : ObjId) (name : String) : Act Value := do
  match ← ofOption ((← get).lookupConst? c name) with
  | some v => return v
  | none => fail .nameError ("uninitialized constant " ++ name)

def globalSet (name : String) (v : Value) : Act Unit := do
  let s ← intern name
  modify fun m => { m with globals := m.globals.insert s v }

def globalGet (name : String) : Act Value := do
  let s ← intern name
  return ((← get).globals.get? s).getD .nil

/-- Sets an instance variable; only objects that are not frozen take one. -/
def ivarSet (target : Value) (name : String) (v : Value) : Act Unit := do
  match target with
  | .obj id =>
    checkFrozen target
    let s ← intern name
    onHeap fun h => h.modify id fun o => { o with ivars := o.ivars.insert s v }
  | _ => fail .argumentError "cannot set instance variable"

end GuestVM.Act

/-- An instance variable, `nil` where there is none. -/
def GuestVM.Machine.ivarGet (m : GuestVM.Machine) (target : GuestVM.Value) (name : String) :
    GuestVM.Value :=
  match target, m.symbols.check name with
  | .obj id, some s => ((m.object? id).bind (·.ivars.get? s)).getD .nil
  | _, _ => .nil
