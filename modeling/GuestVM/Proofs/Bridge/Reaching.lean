import GuestVM.Proofs.Scene

/-! # How bridged calls reach the host

Native code that bridges to the host takes the index that its machine has now, puts the arguments
into an array if the callable is to get them in one, and asks for the callable under that index. -/
set_option autoImplicit false

namespace GuestVM

namespace Stage

def argumentArray (s : Stage) : Object :=
  { cls := Builtin.array.id, body := .array s.machine.args.toArray }

def handed (s : Stage) : Form → Value
  | .bound => .nil
  | .free => .obj (s.machine.newId s.argumentArray)

def handing (s : Stage) : Form → Stage
  | .bound => s
  | .free => s.onMachine (·.withNew s.argumentArray)

def ownIndex (s : Stage) : Nat := s.bridge.registry.indexOf s.machine.handle

theorem handing_bridge (s : Stage) (form : Form) : (s.handing form).bridge = s.bridge := by
  cases form <;> rfl

end Stage

namespace Scene

variable {s s' s'' : Stage}

/-! ## Scripts that come down to others -/

/-- A script comes down to another: to run the one is to run the other, and steps lead there. -/
structure LeadsTo (code : Script) (s : Stage) (code' : Script) (s' : Stage) : Prop where
  runs : ∀ enter fuel, Stage.runWith enter fuel code s = Stage.runWith enter fuel code' s'
  steps : ∀ rest, Steps ⟨code, rest, s⟩ ⟨code', rest, s'⟩

namespace LeadsTo

theorem refl (code : Script) (s : Stage) : LeadsTo code s code s :=
  ⟨fun _ _ => rfl, fun _ => .refl⟩

theorem trans {code code' code'' : Script} (first : LeadsTo code s code' s')
    (second : LeadsTo code' s' code'' s'') : LeadsTo code s code'' s'' where
  runs enter fuel := (first.runs enter fuel).trans (second.runs enter fuel)
  steps rest := (first.steps rest).trans (second.steps rest)

theorem guest {a : Answer} {r : GuestRequest a} {next : a.Carrier → Script} {x : a.Carrier}
    (asked : s.ask (Act.answer r) = some (x, s')) : LeadsTo (.guest r next) s (next x) s' where
  runs enter fuel := by simp only [Stage.runWith, asked]
  steps rest := .single (by simp only [step, asked, Option.map_some])

theorem bridge {a : Answer} {r : BridgeRequest a} {next : a.Carrier → Script} {x : a.Carrier}
    (asked : s.askBridge (Bridge.answer r) = some (x, s')) :
    LeadsTo (.bridge r next) s (next x) s' where
  runs enter fuel := by simp only [Stage.runWith, asked]
  steps rest := .single (by simp only [step, asked, Option.map_some])

end LeadsTo

/-! ## The way to the callable -/

/-- A bridged call asks for its callable under the index of its own machine. -/
theorem leads_gatewayRun (form : Form) (receiver : Value) (function : Nat) :
    LeadsTo (gatewayRun form receiver function) s
      (.hostCall form s.ownIndex receiver function (s.handed form)
        (gatewayEnd s.machine.heap.arenaSave)) (s.handing form) := by
  have index : s.askBridge (Bridge.answer .currentIndex) = some (s.ownIndex, s) := rfl
  have mark : s.ask (Act.answer .arenaSave) = some (s.machine.heap.arenaSave, s) := rfl
  apply (LeadsTo.bridge index).trans
  apply (LeadsTo.guest mark).trans
  cases form with
  | bound => exact .refl _ _
  | free =>
      have items : s.ask (Act.answer .args) = some (s.machine.args, s) := rfl
      have made : s.ask (Act.answer (.arrayNew s.machine.args)) =
          some (s.handed .free, s.handing .free) := rfl
      apply (LeadsTo.guest items).trans
      exact .guest made

/-- What is asked for runs if its table has it and it is admitted; otherwise no callable runs. -/
theorem step_hostCall {form : Form} {index function : Nat} {receiver args : Value}
    {next : Value → Script} {rest : List Pending} {b : Scene} (tidy : s.machine.heap.Tidy)
    (stepped : step ⟨.hostCall form index receiver function args next, rest, s⟩ = some b) :
    (∃ v, b.script = next v ∧ b.pending = rest) ∨
      ∃ slot, s.bridge.tables.lookup index function = some slot ∧
        b.script = slot.callable.body ⟨index, receiver, function⟩ args ∧
        b.pending = .host slot.callable.discipline next :: rest := by
  obtain ⟨⟨resolved, after⟩, asked, same⟩ := Option.map_eq_some_iff.mp stepped
  obtain ⟨-, -, -, admitted⟩ :=
    Stage.ask_evolution (g := {}) (Act.does_resolveCall _ _ _ _) tidy asked
  cases resolved with
  | error v =>
      cases same
      exact .inl ⟨v, rfl, rfl⟩
  | ok c =>
      cases same
      obtain ⟨slot, found, rfl⟩ := admitted c rfl
      exact .inr ⟨slot, found, rfl, rfl⟩

end Scene

end GuestVM
