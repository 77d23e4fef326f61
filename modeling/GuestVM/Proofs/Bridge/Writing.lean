import GuestVM.Proofs.Bridge.Rejecting
import GuestVM.Proofs.Machine.Writing

/-! # What the bridge writes in tables of methods

A host callable becomes a method in the classes that its place names, by its name; what else is done
for host code writes no methods. -/
set_option autoImplicit false

namespace GuestVM

namespace Act

variable {α β : Type} {w : Writing} {m : Machine}

/-! ## Errors and calls -/

end Act

namespace Machine.Obtains

variable {m m' : Machine} {x s : ObjId}

theorem symbols (obtains : m.Obtains x s m') : m'.symbols = m.symbols := by
  induction obtains with
  | kept => rfl
  | under _ _ _ _ ih => exact ih
  | rootless => rfl

end Machine.Obtains

/-- The class `c` gets the method when a host callable is put in its place: the place reaches it,
and the installation there is not refused. -/
def Placement.Fills (place : Placement) (form : Form) (name : String) (n : Nat) (aspec : Aspec)
    (m : Machine) (c : ObjId) : Prop :=
  match place with
  | .method x => x = c ∧ (Act.defineBridged form x name n aspec).Succeeds m
  | .classMethod x =>
      m.Attached c (.obj x) ∧ (Act.defineBridgedOn form (.obj x) name n aspec).Succeeds m
  | .singletonMethod v => m.Attached c v ∧ (Act.defineBridgedOn form v name n aspec).Succeeds m
  | .moduleFunction x =>
      m.Attached c (.obj x) ∧ (Act.defineBridgedOn form (.obj x) name n aspec).Succeeds m ∨
        x = c ∧ (Act.defineCallable form (.moduleFunction x) name n aspec).Succeeds m

namespace Act

variable {w : Writing} {m : Machine} {name : String}

theorem writes_textValue (s : String) : Writes w (textValue s) m :=
  (writes_alloc rfl).bind fun _ _ _ => .pure _

theorem writes_arrayNew (items : List Value) : Writes w (arrayNew items) m :=
  (writes_alloc rfl).bind fun _ _ _ => .pure _

mutual

theorem writes_documentValue : ∀ (d : Document) (m : Machine), Writes w (documentValue d) m
  | .null, _ => .pure _
  | .bool _, _ => .pure _
  | .int _, _ => .pure _
  | .float _, _ => .pure _
  | .str s, _ => writes_textValue s
  | .arr items, m => (writes_documentValues items m).bind fun _ _ _ => writes_arrayNew _
  | .obj members, m => by
      unfold documentValue
      exact ((writes_alloc rfl).bind fun _ _ _ => .pure _).bind fun h _ _ =>
        (writes_putMembers members h _).bind fun _ _ _ => .pure _

theorem writes_documentValues : ∀ (ds : List Document) (m : Machine), Writes w (documentValues ds) m
  | [], _ => .pure _
  | d :: rest, m =>
      (writes_documentValue d m).bind fun _ m₁ _ =>
        (writes_documentValues rest m₁).bind fun _ _ _ => .pure _

theorem writes_putMembers : ∀ (members : List (String × Document)) (h : Value) (m : Machine),
    Writes w (putMembers h members) m
  | [], _, _ => .pure _
  | (name, d) :: rest, h, _ =>
      (writes_textValue name).bind fun key _ _ =>
        (writes_documentValue d _).bind fun v _ _ =>
          (writes_hashSet h key v).attempt.bind fun _ _ _ => writes_putMembers rest h _

end

end Act

end GuestVM
