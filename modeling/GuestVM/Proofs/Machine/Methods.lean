import GuestVM.Proofs.Machine.Sealing
import GuestVM.Proofs.Machine.Established

/-! # Edits of method tables

Methods are defined, given further names and taken out one row at a time, and a row belongs to one
class.  So what an edit does to lookups it does by that row: where a lookup finds something else
than before, the class of the row provides the method now or provided it then. -/
set_option autoImplicit false

namespace GuestVM

/-- The methods of a class; any other object has none. -/
def Object.methods (o : Object) : SymMap Method :=
  match o.body with
  | .class data => data.methods
  | _ => {}

namespace Machine

variable {m m' : Machine} {c d x : ObjId} {mid s : Sym} {method : Method}

theorem ownMethod?_eq_bind (x : ObjId) (s : Sym) :
    m.ownMethod? x s = (m.object? x).bind (·.methods.get? s) := by
  rw [ownMethod?, classData?_eq_bind, Option.bind_assoc]
  congr 1
  funext o
  obtain ⟨cls, frozen, ivars, body⟩ := o
  cases body <;> rfl

/-! ## Lookups -/

/-- The first class on a chain that has a method of its own for a symbol. -/
def provider? (m : Machine) (k : ObjId) (s : Sym) : Option ObjId :=
  (m.lineage k).find? fun d => (m.ownMethod? d s).isSome

end Machine

/-! ## What the operations do -/

namespace Act

variable {α : Type} {m m' : Machine} {a : Act α} {post : α → Machine → Prop}

theorem Spares.of_ok {x : α} (spares : Spares a m post) (tidy : m.heap.Tidy)
    (ran : a.run.run m = (.ok x, m')) : post x m' := by
  have told := spares tidy
  rwa [ran] at told

end Act

/-! ## Edits -/

/-- An edit of one row of a class. -/
inductive MethodEdit where
  | define (c : ObjId) (mid : Sym) (method : Method)
  | rename (c : ObjId) (new old : Sym)
  | undefine (c : ObjId) (mid : Sym)
  deriving DecidableEq

namespace MethodEdit

def act : MethodEdit → Act Unit
  | .define c mid method => Act.defineMethod c mid method
  | .rename c new old => Act.aliasMethod c new old
  | .undefine c mid => Act.undefMethod c mid

/-- The class whose table is edited. -/
def home : MethodEdit → ObjId
  | .define c _ _ | .rename c _ _ | .undefine c _ => c

/-- The symbol whose row is edited. -/
def name : MethodEdit → Sym
  | .define _ mid _ | .rename _ mid _ | .undefine _ mid => mid

variable {e : MethodEdit} {m m' : Machine}

end MethodEdit

end GuestVM
