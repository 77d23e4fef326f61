import GuestVM.Proofs.Machine.Established
import GuestVM.Proofs.Scene.Current

/-! # How bridged calls return

What a host callable gives back is raised when it is the current exception and passed on otherwise,
whichever form the callable has; both forms end in `gatewayEnd`.  The only thing that could keep the
raise from coming to an end is a class without a name, and a rooted machine has none. -/
set_option autoImplicit false

namespace GuestVM

/-- The class with which an exception of host code is raised. -/
def Machine.hostClass (m : Machine) (c : ObjId) : ObjId :=
  if m.descendsFrom c Builtin.exception.id then c else Builtin.exception.id

namespace Act

variable {m : Machine} {v : Value}

/-- What host code raises, with the class it may be raised as. -/
theorem run_hostRaise {c : ObjId} (ends : (m.descendsFrom? c Builtin.exception.id).isSome)
    (raisable : m.Raisable (m.hostClass c)) (message : String) {o : Object}
    (made : o = .exception (m.hostClass c) message) :
    (hostRaise c message).run.run m = (.ok (.obj (m.newId o)), m.raising o) := by
  obtain ⟨e, ran, value⟩ := run_raise raisable message made
  obtain ⟨v, className, text⟩ := e
  cases value
  obtain ⟨is, found⟩ := Option.isSome_iff_exists.mp ends
  unfold hostRaise
  rw [run_get_bind, found, ← Machine.descendsFrom?_eq_some found]
  change ((raise (m.hostClass c) message) >>= _).run.run m = _
  rw [run_bind, ran]
  rfl

theorem run_raiseIfLive_of_other
    (other : ¬ (m.typeOf v = .exception ∧ m.currentException = some v)) :
    (raiseIfLive v).run.run m = (.ok v, m) := by
  unfold raiseIfLive
  rw [run_get_bind, if_neg other]
  rfl

end Act

theorem Stage.ask_of_run {α : Type} {s : Stage} {a : Act α} {x : α} {m : Machine}
    (ran : a.run.run s.machine = (.ok x, m)) : s.ask a = some (x, { s with machine := m }) := by
  simp only [ask, act, ran]

theorem Scene.step_guest_of_run {ans : Answer} {r : GuestRequest ans} {s : Stage} {x : ans.Carrier}
    {m : Machine} (ran : (Act.answer r).run.run s.machine = (.ok x, m))
    (next : ans.Carrier → Script) (pending : List Pending) :
    step ⟨.guest r next, pending, s⟩ = some ⟨next x, pending, { s with machine := m }⟩ := by
  simp only [step, Stage.ask_of_run ran, Option.map_some]

/-- The bridge takes no part in an action of the machine. -/
theorem Stage.askBridge_of_run {α : Type} {s : Stage} {a : Act α} {x : α} {m : Machine}
    (ran : a.run.run s.machine = (.ok x, m)) :
    s.askBridge (liftM a : Bridge.Deed α) = some (x, { s with machine := m }) := by
  have lifted : ((liftM a : Bridge.Deed α).run s.bridge).run.run s.machine =
      (.ok (x, s.bridge), m) := by
    change (a >>= fun x => pure (x, s.bridge)).run.run s.machine = _
    rw [Act.run_bind, ran]
    rfl
  simp only [askBridge, ask_of_run lifted]

namespace Scene

variable {s : Stage}

theorem step_raiseIfLive {v : Value} {r : Except Raised Value} {m : Machine}
    (ran : (Act.attempt (Act.raiseIfLive v)).run.run s.machine = (.ok r, m))
    (rest : List Pending) :
    step ⟨.bridge (.raiseIfLive v) Script.ofResult, rest, s⟩ =
      some ⟨Script.ofResult r, rest, { s with machine := m }⟩ := by
  change Option.map _ (s.askBridge (liftM (Act.attempt (Act.raiseIfLive v)))) = _
  rw [Stage.askBridge_of_run ran]
  rfl

end Scene

end GuestVM
