import GuestVM.Proofs.Bridge.Writing
import GuestVM.Proofs.Scene.Turn

/-! # Steps that write tables of methods

A step edits a row of a table of methods only where its script asks for it and is not refused: to
define a method, to rename or undefine one, or to give a host callable a name.  Any other row of a
class that lives through the step is what it was.  And as long as the symbols that methods are defined
under have names, every method has one. -/
set_option autoImplicit false

namespace GuestVM

/-- Every row of a table of methods is that of a name. -/
def Machine.MethodsNamed (m : Machine) : Prop :=
  ∀ c s, (m.ownMethod? c s).isSome → s.index < m.symbols.size

/-! ## What requests write -/

/-- The edit writes the row of a symbol in a class: it is of that row and is not refused. -/
def MethodEdit.EditsRow (e : MethodEdit) (m : Machine) (c : ObjId) (s : Sym) : Prop :=
  e.home = c ∧ e.name = s ∧ e.act.Succeeds m

/-- The edit of a row that the request is for. -/
def GuestRequest.methodEdit? {a : Answer} (r : GuestRequest a) : Option MethodEdit :=
  match r with
  | .defineMethod c mid proc noArg => some (.define c mid ⟨proc, noArg⟩)
  | .aliasMethod c new old => some (.rename c new old)
  | .undefMethod c mid => some (.undefine c mid)
  | _ => none

/-- The request writes the row of a symbol in a class. -/
def GuestRequest.EditsRow {a : Answer} (r : GuestRequest a) (m : Machine) (c : ObjId) (s : Sym) :
    Prop :=
  ∃ e, r.methodEdit? = some e ∧ e.EditsRow m c s

def BridgeRequest.EditsRow {a : Answer} (r : BridgeRequest a) (b : Bridge) (m : Machine) (c : ObjId)
    (s : Sym) : Prop :=
  match r with
  | .defineCallable place name n aspec =>
      (m.symbols.intern name).1 = s ∧ place.Fills (b.formOf m.handle n .bound) name n aspec m c
  | _ => False

namespace Act

variable {w : Writing} {m : Machine}

end Act

namespace Bridge

open Act

variable {α : Type} {w : Writing} {b : Bridge} {m : Machine}

end Bridge

/-! ## What steps write -/

namespace Stage

variable {α : Type} {w : Writing} {s s' : Stage}

end Stage

namespace Machine.Rewritten

variable {w : Writing} {m : Machine}

theorem unshield (depth : Nat) (r : Except Raised Value) :
    m.Rewritten w (Stage.unshield depth r m) := by
  cases r with
  | ok v => exact .of_slots rfl rfl
  | error e =>
      simp only [Stage.unshield]
      cases e.value.asObj <;> exact .of_slots rfl rfl

theorem removeEntry (hash : Value) (position : Nat) :
    m.Rewritten w (m.removeEntry hash position) := by
  unfold Machine.removeEntry
  cases hash.asObj with
  | none => exact .refl m
  | some id =>
      refine .modify fun o _ => ?_
      obtain ⟨cls, frozen, ivars, body⟩ := o
      cases body <;> rfl

end Machine.Rewritten

namespace Scene

variable {w : Writing} {a b : Scene} {c : ObjId} {s : Sym}

/-- The edit of a row that the step is to make. -/
def methodEdit? (a : Scene) : Option MethodEdit :=
  match a.script with
  | .guest r _ => r.methodEdit?
  | _ => none

/-- The step edits the row of a symbol in a class. -/
def EditsRow (a : Scene) (c : ObjId) (s : Sym) : Prop :=
  match a.script with
  | .guest r _ => r.EditsRow a.stage.machine c s
  | .bridge r _ => r.EditsRow a.stage.bridge a.stage.machine c s
  | _ => False

end Scene

end GuestVM
