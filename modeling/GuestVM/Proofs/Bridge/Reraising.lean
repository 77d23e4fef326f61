import GuestVM.Proofs.Bridge.Returning
import GuestVM.Proofs.Scene.Running
import GuestVM.Proofs.Scene.Turn

/-! # Raising the current exception again

Where a bridged call ends with the current exception, the exception is raised a second time, and its
class name and message are looked up again.  They are what they were: between the two lookups only
the arena has changed. -/
set_option autoImplicit false

namespace GuestVM

namespace Machine

variable {m : Machine} {e : Raised} {id : ObjId} {message : String}

theorem Tells.isObj (tells : m.Tells e) : ∃ id, e.value = .obj id ∧ m.exc = some id := by
  obtain ⟨id, -, same, -⟩ := exception_of_typeOf tells.typed
  exact ⟨id, same, by rw [tells.current, same]; rfl⟩

theorem Tells.hasException (tells : m.Tells e) (same : e.value = .obj id) :
    m.HasException id e.message := by
  obtain ⟨x, o, found, present, body⟩ := exception_of_typeOf tells.typed
  rw [tells.message] at body
  rw [same] at found
  cases found
  exact ⟨o, present, body⟩

/-- A current exception is described as it is. -/
theorem HasException.tells (has : m.HasException id message) (filled : m.exc = some id)
    {name : String} (named : m.realClassName (.obj id) = some name) :
    m.Tells ⟨.obj id, name, m.exceptionMessage (.obj id)⟩ :=
  ⟨⟨named, rfl⟩, filled, has.typeOf⟩

end Machine

namespace Act

variable {m : Machine} {v : Value} {e : Raised}

/-- Raising what is the current exception only looks up how it is described. -/
theorem run_exceptionRaise_current (typed : m.typeOf v = .exception) (filled : m.exc = v.asObj) :
    (exceptionRaise v).run.run m = (do
      let name ← ofOption (m.realClassName v)
      return { value := v, className := name, message := m.exceptionMessage v } :
        Act Raised).run.run m := by
  have same : ({ m with exc := v.asObj } : Machine) = m := by rw [← filled]
  rw [run_exceptionRaise_of_exception typed, run_announce, same]

theorem run_raiseIfLive_live (typed : m.typeOf v = .exception)
    (current : m.currentException = some v) :
    (raiseIfLive v).run.run m =
      match (exceptionRaise v).run.run m with
      | (.ok e, m') => (.error (.raised e), m')
      | (.error h, m') => (.error h, m') := by
  unfold raiseIfLive
  rw [run_get_bind, if_pos ⟨typed, current⟩]
  simp only [throwing, run_bind]
  rcases (exceptionRaise v).run.run m with ⟨h | e, m'⟩ <;> rfl

/-- The current exception is raised as what it is. -/
theorem run_raiseIfLive_again (tells : m.Tells e) :
    (raiseIfLive e.value).run.run m = (.error (.raised e), m) := by
  obtain ⟨id, same, filled⟩ := tells.isObj
  have current : m.currentException = some e.value := by
    rw [Machine.currentException, filled, same]
    rfl
  rw [run_raiseIfLive_live tells.typed current,
    run_exceptionRaise_current tells.typed tells.current, tells.named, tells.message]
  rfl

/-- The only thing that can keep it from being raised is a class name without end. -/
theorem run_raiseIfLive_endless {id : ObjId} (typed : m.typeOf (.obj id) = .exception)
    (filled : m.exc = some id) (named : m.realClassName (.obj id) = none) :
    (raiseIfLive (.obj id)).run.run m = (.error .endless, m) := by
  have current : m.currentException = some (.obj id) := by
    rw [Machine.currentException, filled]
    rfl
  rw [run_raiseIfLive_live typed current, run_exceptionRaise_current typed filled, named]
  rfl

end Act

/-- The stage when the arena has been cut back and an object kept on it. -/
def Stage.holding (s : Stage) (mark : Nat) (id : ObjId) : Stage :=
  s.onMachine fun m => { m with heap := (m.heap.arenaRestore mark).arenaPush id }

theorem Stage.askBridge_of_endless {α : Type} {s : Stage} {a : Act α} {m : Machine}
    (ran : a.run.run s.machine = (.error .endless, m)) :
    s.askBridge (liftM a : Bridge.Deed α) = none := by
  have lifted : ((liftM a : Bridge.Deed α).run s.bridge).run.run s.machine =
      (.error .endless, m) := by
    change (a >>= fun x => pure (x, s.bridge)).run.run s.machine = _
    rw [Act.run_bind, ran]
  simp only [askBridge, ask, act, lifted]

namespace Scene

variable {a b c : Scene} {s : Stage} {e : Raised} {id : ObjId}

theorem steps_holding (mark : Nat) (id : ObjId) (rest : List Pending) (s : Stage) :
    StepsOver rest ⟨gatewayEnd mark (.obj id), rest, s⟩
      ⟨.bridge (.raiseIfLive (.obj id)) Script.ofResult, rest, s.holding mark id⟩ :=
  .head (b := ⟨.guest (.arenaPush id) fun _ => .bridge (.raiseIfLive (.obj id)) Script.ofResult,
    rest, s.onMachine fun m => { m with heap := m.heap.arenaRestore mark }⟩) ⟨rfl, List.suffix_rfl⟩
    (.single ⟨rfl, List.suffix_rfl⟩)

/-- A bridged call whose callable has given back the current exception. -/
theorem steps_gatewayEnd_again (tells : s.machine.Tells e) (same : e.value = .obj id) (mark : Nat)
    (rest : List Pending) :
    StepsOver rest ⟨gatewayEnd mark e.value, rest, s⟩
      ⟨.done (.raised e), rest, s.holding mark id⟩ := by
  have held : (s.holding mark id).machine.Tells e := tells.congr rfl rfl rfl
  have attempted : (Act.attempt (Act.raiseIfLive e.value)).run.run (s.holding mark id).machine =
      (.ok (.error e), (s.holding mark id).machine) := by
    rw [Act.run_attempt, Act.run_raiseIfLive_again held]
  rw [same] at attempted ⊢
  exact (steps_holding mark id rest s).tail ⟨step_raiseIfLive attempted rest, List.suffix_rfl⟩

end Scene

/-- A bridged call that ends with the current exception ends by raising it, if it ends. -/
theorem Stage.raises_of_run_gatewayEnd {s last : Stage} {fuel mark : Nat} {id : ObjId}
    {message : String} {result : Outcome} (has : s.machine.HasException id message)
    (filled : s.machine.exc = some id)
    (ran : Stage.run fuel (gatewayEnd mark (.obj id)) s = some (result, last)) :
    ∃ e, result = .raised e ∧ e.value = .obj id := by
  have steps := Scene.steps_of_run fuel _ s result last ran []
  cases named : s.machine.realClassName (.obj id) with
  | some name =>
      have raised := Scene.steps_gatewayEnd_again (has.tells filled named) rfl mark []
      cases Scene.steps_unique steps rfl raised.steps rfl
      exact ⟨_, rfl, rfl⟩
  | none =>
      let held := s.holding mark id
      have slots : held.machine.heap.slots = s.machine.heap.slots := rfl
      have symbols : held.machine.symbols = s.machine.symbols := rfl
      have unnamed : held.machine.realClassName (.obj id) = none :=
        (Machine.realClassName_congr slots symbols _).trans named
      have typed : held.machine.typeOf (.obj id) = .exception :=
        (Machine.typeOf_congr slots _).trans has.typeOf
      have attempted : (Act.attempt (Act.raiseIfLive (.obj id))).run.run held.machine =
          (.error .endless, held.machine) := by
        rw [Act.run_attempt, Act.run_raiseIfLive_endless typed filled unnamed]
      have stuck :
          Scene.step ⟨.bridge (.raiseIfLive (.obj id)) Script.ofResult, [], held⟩ = none := by
        change Option.map _ (held.askBridge (liftM (Act.attempt (Act.raiseIfLive (.obj id))))) = _
        rw [Stage.askBridge_of_endless attempted]
        rfl
      cases Scene.steps_unique steps rfl (Scene.steps_holding mark id [] s).steps stuck

end GuestVM
