import GuestVM.Proofs.Bridge.Events
import GuestVM.Proofs.Bridge.Returning
import GuestVM.Script.Hosting

/-! # What giving a callable to the guest does

A callable is registered first and installed then.  The installation is an action of the machine, and
whatever comes of it, an exception included, the table has gained the callable. -/
set_option autoImplicit false

namespace GuestVM

namespace Stage

variable {α : Type}

theorem askBridge_seeing (s : Stage) (f : Bridge → Handle → Act α) :
    s.askBridge (Bridge.seeing f) = s.ask (f s.bridge s.machine.handle) := by
  have seen : ((Bridge.seeing f).run s.bridge).run.run s.machine =
      ((f s.bridge s.machine.handle).run.run s.machine).map (Except.map (·, s.bridge)) id := by
    change (f s.bridge s.machine.handle >>= fun x => pure (x, s.bridge)).run.run s.machine = _
    rw [Act.run_bind]
    rcases (f s.bridge s.machine.handle).run.run s.machine with ⟨h | x, m⟩ <;> rfl
  simp only [askBridge, ask, act, seen]
  rcases (f s.bridge s.machine.handle).run.run s.machine with ⟨(e | _) | x, m⟩ <;> rfl

theorem ask_attempt (s : Stage) (a : Act α) : s.ask (Act.attempt a) = s.act a := by
  rw [ask, act, act, Act.run_attempt]
  rcases a.run.run s.machine with ⟨(e | _) | x, m⟩ <;> rfl

/-- What the installation of a callable comes to. -/
theorem askBridge_defineCallable (s : Stage) (place : Placement) (text : String) (n : Nat)
    (aspec : Aspec) :
    s.askBridge (Bridge.answer (.defineCallable place text n aspec)) =
      s.act (Act.defineCallable (s.bridge.formOf s.machine.handle n .bound) place text n aspec) :=
  (s.askBridge_seeing fun b h =>
    Act.attempt (Act.defineCallable (b.formOf h n .bound) place text n aspec)).trans (s.ask_attempt _)

end Stage

/-- A stage whose tables have gained a callable. -/
def Stage.gaining (s : Stage) (index : Nat) (c : Callable) (aspec : Aspec) : Stage :=
  { s with bridge := s.bridge.after (.gain index c aspec) }

namespace Scene

/-- Code that gives a callable to the guest goes on with its number or with the exception that the
installation raised, or never, if that has no end. -/
theorem steps_defineHosted (s : Stage) (index : Nat) (place : Placement) (text : String)
    (form : Form) (discipline : Discipline) (body : CallContext → Value → Script) (aspec : Aspec)
    (next : Except Raised Nat → Script) (rest : List Pending) :
    let c : Callable := ⟨form, discipline, body⟩
    let n := (s.bridge.tables.register index c aspec).1
    let gained := s.gaining index c aspec
    let a : Scene := ⟨.defineHosted index place text form discipline body aspec next, rest, s⟩
    match (Act.defineCallable (gained.bridge.formOf s.machine.handle n .bound) place text n
        aspec).run.run s.machine with
    | (.ok _, m) => LawfulSteps a ⟨next (.ok n), rest, { gained with machine := m }⟩
    | (.error (.raised e), m) => LawfulSteps a ⟨next (.error e), rest, { gained with machine := m }⟩
    | (.error .endless, _) => ∃ onward,
      let b : Scene := ⟨.bridge (.defineCallable place text n aspec) onward, rest, gained⟩
      LawfulSteps a b ∧ b.step = none := by
  intro c n gained a
  let onward : Except Raised ObjId → Script
    | .ok _ => next (.ok n)
    | .error e => next (.error e)
  let installing : Scene := ⟨.bridge (.defineCallable place text n aspec) onward, rest, gained⟩
  have registered : LawfulSteps a installing := .single ⟨rfl, rfl⟩
  have installed := gained.askBridge_defineCallable place text n aspec
  have acts : ∀ {r m}, (Act.defineCallable (gained.bridge.formOf s.machine.handle n .bound) place
      text n aspec).run.run s.machine = (r, m) →
        installing.step = (gained.act (Act.defineCallable
          (gained.bridge.formOf s.machine.handle n .bound) place text n aspec)).map
            fun (r, s) => ⟨onward r, rest, s⟩ := by
    intro r m ran
    simp only [installing, step, installed]
    rfl
  split
  case h_1 p m ran =>
      refine registered.tail ⟨rfl, ?_⟩
      rw [acts ran, Stage.act, show gained.machine = s.machine from rfl, ran]
      rfl
  case h_2 e m ran =>
      refine registered.tail ⟨rfl, ?_⟩
      rw [acts ran, Stage.act, show gained.machine = s.machine from rfl, ran]
      rfl
  case h_3 m ran =>
      refine ⟨onward, registered, ?_⟩
      change installing.step = none
      rw [acts ran, Stage.act, show gained.machine = s.machine from rfl, ran]
      rfl

end Scene

end GuestVM
