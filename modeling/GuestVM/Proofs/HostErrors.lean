import GuestVM.Proofs.Bridge.Events
import GuestVM.Proofs.Bridge.Surfacing
import GuestVM.Proofs.LiveException

/-! # Errors of host code are raised

A callable that passes its errors on never ends a bridged call with an ordinary value: whatever error
its body ends with, the call raises an exception with the message of the error.  The call has no end
where the error names a class whose superclasses go round; no class is like that unless an operation
was handed the id of an object that was gone.

The class of an exception that is passed on goes by its name alone.  It is kept only if the name leads
back to it: an exception class that is bound below a module surfaces as StandardError, or as another
class that has its name at the top level. -/
set_option autoImplicit false

namespace GuestVM

/-- An error has surfaced as the exception `e`. -/
structure Machine.Surfaces (m : Machine) (err : HostError) (e : Raised) (m' : Machine) : Prop where
  /-- The exception is new and the current one. -/
  current : ∃ id, e.value = .obj id ∧ m.object? id = none ∧ m'.exc = some id
  typed : m'.typeOf e.value = .exception
  kind : m'.isKindOf e.value Builtin.exception.id = true
  conveys : err.Conveys m e.message
  message : m'.exceptionMessage e.value = e.message

/-- An exception that host code passed on has surfaced as the exception object `id`. -/
structure Machine.PassesOn (m : Machine) (e : Raised) (m' : Machine) (id : ObjId) : Prop where
  fresh : m.object? id = none
  current : m'.exc = some id
  typed : m'.typeOf (.obj id) = .exception
  message : m'.exceptionMessage (.obj id) = e.message
  /-- Its class is the exception class bound to the name at the top level, `Exception` if what is
  bound there is no exception class, and StandardError if nothing is. -/
  named : ∀ c, m.NamesException e.className c → m'.realClassOf (.obj id) = m.realClass c
  other : ∀ c, m.classGet e.className = some c → ¬ m.NamesException e.className c →
    m'.realClassOf (.obj id) = Builtin.exception.id
  unbound : m.classGet e.className = none →
    m'.realClassOf (.obj id) = m.hostClass Builtin.standardError.id
  /-- It is the class that was passed on in these cases only. -/
  kept : m'.realClassOf (.obj id) = m.realClassOf e.value ↔
    (∃ c, m.NamesException e.className c ∧ m.realClass c = m.realClassOf e.value) ∨
    (∃ c, m.classGet e.className = some c ∧ ¬ m.NamesException e.className c) ∧
      Builtin.exception.id = m.realClassOf e.value ∨
    m.classGet e.className = none ∧ m.hostClass Builtin.standardError.id = m.realClassOf e.value

/-- The class of the exception is out of reach by its name: nothing is bound to it at the top level. -/
structure Machine.Nested (m : Machine) (e : Raised) : Prop where
  typed : m.typeOf e.value = .exception
  exceptional : m.descendsFrom (m.realClassOf e.value) Builtin.exception.id = true
  unbound : m.classGet e.className = none
  apart : m.hostClass Builtin.standardError.id ≠ m.realClassOf e.value

namespace Machine

variable {m : Machine}

theorem Established.realClass_hostClass (established : m.Established) (b : Builtin) :
    m.realClass (m.hostClass b.id) = m.hostClass b.id := by
  unfold hostClass
  split
  · exact established.realClass_builtin b
  · exact established.realClass_builtin .exception

/-- The three cases of an exception that is passed on exclude each other, so that its class decides
between them. -/
theorem surfaced_iff {name : String} {real target : ObjId}
    (named : ∀ c, m.NamesException name c → real = m.realClass c)
    (other : ∀ c, m.classGet name = some c → ¬ m.NamesException name c → real = Builtin.exception.id)
    (unbound : m.classGet name = none → real = m.hostClass Builtin.standardError.id) :
    real = target ↔
      (∃ c, m.NamesException name c ∧ m.realClass c = target) ∨
      (∃ c, m.classGet name = some c ∧ ¬ m.NamesException name c) ∧ Builtin.exception.id = target ∨
      m.classGet name = none ∧ m.hostClass Builtin.standardError.id = target := by
  cases bound : m.classGet name with
  | none =>
      rw [unbound bound]
      simp [NamesException, bound]
  | some c =>
      have only : ∀ d, m.NamesException name d → d = c := by
        rintro d ⟨found, -⟩
        exact Option.some.inj (found.symm.trans bound)
      by_cases names : m.NamesException name c
      · rw [named c names]
        constructor
        · exact fun same => .inl ⟨c, names, same⟩
        · rintro (⟨d, isNamed, same⟩ | ⟨⟨d, found, unnamed⟩, -⟩ | ⟨none, -⟩)
          · rwa [← only d isNamed]
          · cases found
            exact (unnamed names).elim
          · cases none
      · rw [other c bound names]
        constructor
        · exact fun same => .inr (.inl ⟨⟨c, rfl, names⟩, same⟩)
        · rintro (⟨d, isNamed, -⟩ | ⟨-, same⟩ | ⟨none, -⟩)
          · exact (names (only d isNamed ▸ isNamed)).elim
          · exact same
          · cases none

section After

variable {m' : Machine} {err : HostError} {e : Raised}

/-- After the raise only the arena may have changed. -/
theorem Established.surfaces (established : m.Established)
    (slots : m'.heap.slots = (m.raising (m.surfacingObject err)).heap.slots)
    (exc : m'.exc = some (m.newId (m.surfacingObject err)))
    (value : e.value = .obj (m.newId (m.surfacingObject err))) (tells : m'.Tells e) :
    m.Surfaces err e m' := by
  have tidy := established.tidy
  have told : e.message = (m.surfacing err).2 := by
    rw [← tells.message, value, exceptionMessage_congr slots]
    exact exceptionMessage_raising tidy
  constructor
  case current => exact ⟨_, value, newId_dead tidy _, exc⟩
  case typed => exact tells.typed
  case kind =>
      rw [value, isKindOf_congr slots]
      exact isKindOf_raising tidy (Established.descendsFrom_hostClass _)
  case conveys =>
      rw [told]
      exact HostError.conveys_surfacing err
  case message => exact tells.message

theorem Established.realClassOf_surfaced (established : m.Established)
    (cause : err.cause = .raised e)
    (slots : m'.heap.slots = (m.raising (m.surfacingObject err)).heap.slots) :
    m'.realClassOf (.obj (m.newId (m.surfacingObject err))) =
      m.realClass (m.hostClass (m.classNamed e.className)) := by
  have raisable := established.raisable
    (Established.descendsFrom_hostClass (m.classNamed e.className))
  rw [realClassOf_congr slots, surfacingObject, surfacing, surfacing?, cause]
  exact realClassOf_raising raisable

theorem Established.passesOn (established : m.Established) (cause : err.cause = .raised e)
    (slots : m'.heap.slots = (m.raising (m.surfacingObject err)).heap.slots)
    (exc : m'.exc = some (m.newId (m.surfacingObject err))) :
    m.PassesOn e m' (m.newId (m.surfacingObject err)) := by
  have tidy := established.tidy
  have real := established.realClassOf_surfaced cause slots
  have named : ∀ c, m.NamesException e.className c →
      m'.realClassOf (.obj (m.newId (m.surfacingObject err))) = m.realClass c := by
    rintro c ⟨bound, exceptional⟩
    rw [real, classNamed, bound, Option.getD_some, hostClass, if_pos exceptional]
  have other : ∀ c, m.classGet e.className = some c → ¬ m.NamesException e.className c →
      m'.realClassOf (.obj (m.newId (m.surfacingObject err))) = Builtin.exception.id := by
    intro c bound unnamed
    have foreign : ¬ m.descendsFrom c Builtin.exception.id = true := fun is => unnamed ⟨bound, is⟩
    rw [real, classNamed, bound, Option.getD_some, hostClass, if_neg foreign,
      established.realClass_builtin]
  have unbound : m.classGet e.className = none →
      m'.realClassOf (.obj (m.newId (m.surfacingObject err))) =
        m.hostClass Builtin.standardError.id := by
    intro free
    rw [real, classNamed, free, Option.getD_none, established.realClass_hostClass]
  constructor
  case fresh => exact newId_dead tidy _
  case current => exact exc
  case typed => exact (typeOf_congr slots _).trans (typeOf_raising tidy)
  case message =>
      rw [exceptionMessage_congr slots, surfacingObject, surfacing, surfacing?, cause]
      exact exceptionMessage_raising tidy
  case named => exact named
  case other => exact other
  case unbound => exact unbound
  case kept => exact surfaced_iff named other unbound

end After

end Machine

namespace Situation

attribute [local irreducible] Machine.opened

variable {now : Situation} {name : String} {i : Instance}

theorem Run.established {allowed : Situation → Move → Prop} (run : Run allowed {} now)
    (present : now.world.instance? name = some i) : i.machine.Established := by
  refine Run.machines (P := Machine.Established) Machine.established_opened ?_ run present
  intro now name a b _ _ _ stepped established
  exact (Scene.step_evolution stepped established.tidy).1.established established

variable {o : Outcome} {err : HostError} {mark : Nat} {rest : List Pending} {s : Stage}

/-- How a bridged call goes on whose callable has ended with an error. -/
structure Raising (err : HostError) (o : Outcome) (mark : Nat) (rest : List Pending) (s : Stage) :
    Prop where
  /-- An exception is raised, which the caller of the bridged call gets. -/
  raises : ¬ err.Sticks s.machine →
    ∃ e s', Scene.StepsOver rest ⟨.done o, .host .fallible (gatewayEnd mark) :: rest, s⟩
        ⟨.done (.raised e), rest, s'⟩ ∧
      s.machine.Surfaces err e s'.machine ∧
      ∀ depth next outer, rest = .call depth next :: outer →
        Scene.step ⟨.done (.raised e), rest, s'⟩ =
          some ⟨next (.error e), outer, s'.onMachine (·.unwound depth)⟩
  /-- Otherwise the call has no end, with an ordinary value or any other. -/
  endless : err.Sticks s.machine →
    Scene.step ⟨.done o, .host .fallible (gatewayEnd mark) :: rest, s⟩ = none

theorem raising_of_fails (established : s.machine.Established) (fails : o.Fails err) :
    Raising err o mark rest s where
  raises free := by
    obtain ⟨e, steps, value, tells⟩ := Scene.steps_fallible fails established free mark rest
    refine ⟨e, _, steps, established.surfaces rfl rfl value tells, ?_⟩
    rintro depth next outer rfl
    rfl
  endless sticks := Scene.step_sticking fails sticks _ rest

/-- A callable that passes its errors on and ends with one has an exception raised, unless the error
names a class whose superclasses go round, and then the call has no end. -/
theorem host_errors_raised (run : Run Anything {} now) (fails : o.Fails err)
    (shown : now.scene? name = some ⟨.done o, .host .fallible (gatewayEnd mark) :: rest, s⟩) :
    Raising err o mark rest s ∧ (Run Careful {} now → ¬ err.Sticks s.machine) := by
  obtain ⟨i, present, machine, -⟩ := scene?_eq_some shown
  have established : s.machine.Established := machine ▸ run.established present
  have here : s.machine = i.machine := machine
  exact ⟨raising_of_fails established fails,
    fun careful => here ▸ (careful.sane present).rooted.not_sticks err⟩

/-! ## An error that names its class -/

def badCount : HostError := { contexts := ["ArgumentError: bad count"], cause := .plain "seven" }

/-- A callable fails when it is run as its bridged method would run it. -/
def hostFailing : Script :=
  .register 1 .bound .fallible (fun _ _ => .done (.failed badCount)) .none fun n =>
    .hostCall .bound 1 .nil n .nil (gatewayEnd 0)

def failed : Scene where
  script := .done (.failed badCount)
  pending := [.host .fallible (gatewayEnd 0)]
  stage :=
    { machine := .opened ⟨1⟩ {}
      bridge := { tables := (Tables.register {} 1
        ⟨.bound, .fallible, fun _ _ => .done (.failed badCount)⟩ .none).2 } }

theorem run_failed :
    Run Anything {} ((beginning hostFailing).showing "vm" { machine := .opened ⟨1⟩ {} } failed) := by
  have begun : Run Anything {} (beginning hostFailing) := run_beginning hostFailing trivial trivial
  rw [← showing_beginning hostFailing] at begun
  let asking : Scene := ⟨.hostCall .bound 1 .nil 0 .nil (gatewayEnd 0), [], failed.stage⟩
  have steps : Scene.LawfulSteps ⟨hostFailing, [], { machine := .opened ⟨1⟩ {} }⟩ failed :=
    .head (b := asking) ⟨rfl, rfl⟩ (.single ⟨rfl, rfl⟩)
  exact begun.trans (run_showing steps)

theorem badCount_conveys : badCount.Conveys failed.stage.machine "bad count" := by
  have named : (Machine.opened ⟨1⟩ {}).classGet "ArgumentError" = some Builtin.argumentError.id ∧
      (Machine.opened ⟨1⟩ {}).descendsFrom Builtin.argumentError.id Builtin.exception.id = true := by
    rw [Machine.opened_eq]
    decide +kernel
  exact .named rfl ⟨rfl, by decide⟩ named

theorem badCount_free : ¬ badCount.Sticks failed.stage.machine := by
  have rooted : failed.stage.machine.Rooted :=
    Machine.rooted_of_original (Machine.original_opened ⟨1⟩ {})
  exact rooted.not_sticks badCount

/-- The exception has the message without the name of its class. -/
theorem host_errors_raised_named : ∃ now s e s', Run Anything {} now ∧
    now.scene? "vm" = some ⟨.done (.failed badCount), [.host .fallible (gatewayEnd 0)], s⟩ ∧
      Scene.Steps ⟨.done (.failed badCount), [.host .fallible (gatewayEnd 0)], s⟩
        ⟨.done (.raised e), [], s'⟩ ∧
      s.machine.Surfaces badCount e s'.machine ∧ e.message = "bad count" := by
  obtain ⟨raising, -⟩ := host_errors_raised run_failed (.failed badCount) scene?_showing
  obtain ⟨e, s', steps, surfaces, -⟩ := raising.raises badCount_free
  exact ⟨_, _, e, s', run_failed, scene?_showing, steps.steps, surfaces,
    surfaces.conveys.unique badCount_conveys⟩

/-! ## A class that is its own superclass -/

def loopError : HostError := { cause := .raise { kind := .named "Loop", message := "late" } }

/-- Gives the id of an object that is gone for a class.  The singleton class that is then made gets
that id and itself for a superclass, and a callable fails with an error that names it. -/
def looping : Script :=
  .guest .arenaSave fun mark => .guest (.objectNew Builtin.object.id) fun _ =>
    .guest (.objectNew Builtin.object.id) fun _ => .guest (.arenaRestore mark) fun _ =>
      .guest .collect fun _ => .guest (.istructNew ⟨63⟩ 0) fun x => .guest (.singletonClass x) fun
        | .ok c => .guest (.constSet Builtin.object.id "Loop" (.obj c)) fun _ =>
          .register 1 .bound .fallible (fun _ _ => .done (.failed loopError)) .none fun n =>
            .hostCall .bound 1 .nil n .nil (gatewayEnd 0)
        | .error e => .done (.raised e)

/-- The callable has failed with the error, and the bridged call takes no step. -/
def standsStill (a : Scene) : Bool :=
  match a.script, a.pending with
  | .done (.failed e), [.host .fallible _] => decide (e = loopError) && a.step.isNone
  | _, _ => false

/-- The callable has failed, and no exception is ever raised. -/
theorem looping_class_stuck : ∃ now a next, Run Anything {} now ∧ now.scene? "vm" = some a ∧
    Scene.Steps ⟨looping, [], { machine := .opened ⟨1⟩ {} }⟩ a ∧
      a.script = .done (.failed loopError) ∧ a.pending = [.host .fallible next] ∧ a.step = none ∧
        ∀ e s', ¬ Scene.Steps a ⟨.done (.raised e), [], s'⟩ := by
  have replayed : ((Scene.replay Scene.Lawful 10
      ⟨looping, [], { machine := .opened ⟨1⟩ {} }⟩).any standsStill) = true := by
    rw [Machine.opened_eq]
    decide +kernel
  obtain ⟨a, reached, fails⟩ := (Option.any_eq_true _ _).mp replayed
  unfold standsStill at fails
  split at fails
  case h_1 e next script pending =>
      obtain ⟨same, halted⟩ := (Bool.and_eq_true _ _).mp fails
      obtain rfl : e = loopError := of_decide_eq_true same
      have stuck : a.step = none := Option.isNone_iff_eq_none.mp halted
      have steps : Scene.LawfulSteps ⟨looping, [], { machine := .opened ⟨1⟩ {} }⟩ a :=
        Scene.steps_of_replay reached
      have begun : Run Anything {} (beginning looping) := run_beginning looping trivial trivial
      rw [← showing_beginning looping] at begun
      refine ⟨_, a, next, begun.trans (run_showing steps), scene?_showing, steps.steps, script,
        pending, stuck, fun e' s' onward => ?_⟩
      rcases onward.cases_head with rfl | ⟨c, stepped, -⟩
      · cases script
      · cases stuck.symm.trans stepped
  case h_2 => cases fails

/-! ## The class of what is passed on -/

/-- How an exception surfaces that host code passed on: from `raiseError`, and from a callable that
ends with it. -/
structure PassedOn (now : Situation) (name : String) (m : Machine) (e : Raised) : Prop where
  raised : ∀ contexts, ∃ id m',
    (Act.raiseError ⟨contexts, .raised e⟩).run.run m = (.ok (.obj id), m') ∧ m.PassesOn e m' id
  returned : ∀ mark rest s, now.scene? name =
      some ⟨.done (.raised e), .host .fallible (gatewayEnd mark) :: rest, s⟩ →
    ∃ e' id s', Scene.StepsOver rest
        ⟨.done (.raised e), .host .fallible (gatewayEnd mark) :: rest, s⟩
        ⟨.done (.raised e'), rest, s'⟩ ∧
      e'.value = .obj id ∧ m.PassesOn e s'.machine id

/-- Neither has an end. -/
structure Stuck (now : Situation) (name : String) (m : Machine) (e : Raised) : Prop where
  raised : ∀ contexts, (Act.raiseError ⟨contexts, .raised e⟩).run.run m = (.error .endless, m)
  returned : ∀ mark rest s, now.scene? name =
      some ⟨.done (.raised e), .host .fallible (gatewayEnd mark) :: rest, s⟩ →
    Scene.step ⟨.done (.raised e), .host .fallible (gatewayEnd mark) :: rest, s⟩ = none

/-- The class with which an exception surfaces that host code passed on.  It surfaces unless a class
whose superclasses go round is bound to the name of its class; no class is like that in a run that
hands over ids of live objects only. -/
theorem passed_on_class (run : Run Anything {} now) (present : now.world.instance? name = some i)
    (e : Raised) :
    (¬ i.machine.Traps e → PassedOn now name i.machine e) ∧
      (i.machine.Traps e → Stuck now name i.machine e) ∧
        (Run Careful {} now → ¬ i.machine.Traps e) := by
  have established := run.established present
  have sticks : ∀ contexts, (⟨contexts, .raised e⟩ : HostError).Sticks i.machine ↔
      i.machine.Traps e := fun _ => HostError.sticks_raised_iff
  refine ⟨fun known => ?_, fun traps => ?_, fun careful traps => ?_⟩
  · constructor
    · intro contexts
      exact ⟨_, _, established.run_raiseError (mt (sticks contexts).mp known),
        established.passesOn rfl rfl rfl⟩
    · intro mark rest s shown
      obtain ⟨k, found, machine, -⟩ := scene?_eq_some shown
      cases present.symm.trans found
      have free := mt (sticks []).mp known
      rw [← machine] at established free ⊢
      obtain ⟨e', steps, value, -⟩ := Scene.steps_fallible (.raised e) established free mark rest
      exact ⟨e', _, _, steps, value, established.passesOn rfl rfl rfl⟩
  · constructor
    · exact fun contexts => Machine.run_raiseError_endless ((sticks contexts).mpr traps)
    · intro mark rest s shown
      obtain ⟨k, found, machine, -⟩ := scene?_eq_some shown
      cases present.symm.trans found
      have stuck := (sticks []).mpr traps
      rw [← machine] at stuck
      exact Scene.step_sticking (.raised e) stuck _ rest
  · exact (careful.sane present).rooted.not_sticks _ ((sticks []).mpr traps)

/-! ## A class below a module -/

/-- Raises an exception whose class is bound below a module. -/
def raisingNested : Script :=
  .guest (.defineModule Builtin.object.id "Net") fun
    | .ok net =>
      .guest (.defineClass net "Timeout" (some Builtin.standardError.id)) fun
        | .ok c => .guest (.raise c "late") fun e => .done (.raised e)
        | .error e => .done (.raised e)
    | .error e => .done (.raised e)

theorem raisingNested_replayed : ∃ a e,
    carefully 3 ⟨raisingNested, [], { machine := .opened ⟨1⟩ {} }⟩ = some a ∧
      a.stage.machine.Nested e := by
  have replayed : ((carefully 3 ⟨raisingNested, [], { machine := .opened ⟨1⟩ {} }⟩).any fun a =>
      match a.script with
      | .done (.raised e) =>
        let m := a.stage.machine
        decide (m.typeOf e.value = .exception ∧
          m.descendsFrom (m.realClassOf e.value) Builtin.exception.id = true ∧
          m.classGet e.className = none ∧
          m.hostClass Builtin.standardError.id ≠ m.realClassOf e.value)
      | _ => false) = true := by
    rw [Machine.opened_eq]
    decide +kernel
  obtain ⟨a, reached, nested⟩ := (Option.any_eq_true _ _).mp replayed
  split at nested
  case h_1 e _ =>
    obtain ⟨typed, exceptional, unbound, apart⟩ := of_decide_eq_true nested
    exact ⟨a, e, reached, typed, exceptional, unbound, apart⟩
  case h_2 => cases nested

/-- The exception is passed on with another class. -/
theorem passed_on_class_nested : ∃ now i e, Run Anything {} now ∧
    now.world.instance? "vm" = some i ∧ i.machine.Nested e ∧
      ∃ id m', (Act.raiseError (.ofRaised e)).run.run i.machine = (.ok (.obj id), m') ∧
        i.machine.PassesOn e m' id ∧ m'.realClassOf (.obj id) ≠ i.machine.realClassOf e.value := by
  obtain ⟨a, e, reached, nested⟩ := raisingNested_replayed
  have run : Run Anything {} _ := (run_carefully_beginning reached).mono fun _ _ _ => trivial
  obtain ⟨passed, -⟩ := passed_on_class run (World.instance?_put_self _) e
  have known : ¬ a.stage.machine.Traps e := by
    rintro ⟨c, bound, -⟩
    cases nested.unbound.symm.trans bound
  obtain ⟨id, m', ran, passes⟩ := (passed known).raised []
  refine ⟨_, _, e, run, World.instance?_put_self _, nested, id, m', ran, passes, ?_⟩
  rw [passes.unbound nested.unbound]
  exact nested.apart

end Situation

end GuestVM
