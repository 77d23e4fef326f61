import GuestVM.Proofs.Balance
import GuestVM.Proofs.Bridge.Calling
import GuestVM.Proofs.HostErrors
import GuestVM.Proofs.Machine.Ancestry

/-! # Raises that wait for their callable to return

A callable that has raised for the guest goes on as if nothing had happened, and what it raised goes
up when it is returned.  Until then nothing but the slot of the current exception says that it was
raised.  So the raise is kept through everything that leaves the slot alone: other requests, calls
and protected regions that end well.  Another raise takes the slot, even if it is caught; a
protected region that ends with an exception empties it. -/
set_option autoImplicit false

namespace GuestVM

/-! ## Steps that leave the slot alone -/

namespace Scene

variable {a b : Scene} {id : ObjId}

theorem step_exc (stepped : a.step = some b) (tidy : a.stage.machine.heap.Tidy)
    (quiet : ¬ a.Raises) (uncleared : ¬ a.Clears) :
    b.stage.machine.exc = a.stage.machine.exc := by
  cases turn_of_step stepped tidy with
  | acts did => exact did.exc quiet
  | cuts mark next script machine => rw [machine]
  | clears next script => exact (uncleared (.inl ⟨next, script⟩)).elim
  | enters f m next did machine =>
      rw [machine]
      exact did.exc quiet
  | shields next machine =>
      rw [machine]
      rfl
  | hosts discipline next did => exact did.exc quiet
  | setsOff walk m did machine =>
      rw [machine]
      exact did.exc quiet
  | returns depth next o m did script machine =>
      rw [machine]
      exact did.exc quiet
  | unshields depth next o r m did script passed machine pending =>
      cases r with
      | ok v =>
          rw [machine]
          exact did.exc quiet
      | error e =>
          refine (uncleared (.inr ⟨o, depth, next, b.pending, script, ?_, pending⟩)).elim
          intro v value
          obtain ⟨w, impossible⟩ := passed.mpr ⟨v, value⟩
          cases impossible
  | handsOn discipline next o did => exact did.exc quiet
  | visits walk onward rest o did => exact did.exc quiet
  | arrives walk o m did script machine =>
      rw [machine]
      exact did.exc quiet

/-- What a step may do while a raise of `id` waits. -/
structure Keeps (id : ObjId) (a : Scene) : Prop where
  uncleared : ¬ a.Clears
  /-- It may raise nothing but what waits. -/
  unreplaced : a.Raises → ∀ b, a.step = some b → b.stage.machine.exc = some id

/-- What a callable hands back goes to the one who waits for it. -/
theorem step_handOn {o : Outcome} {discipline : Discipline} {v : Value} {stage s : Stage}
    (handed : stage.handOn discipline o = some (v, s)) (next : Value → Script)
    (rest : List Pending) :
    step ⟨.done o, .host discipline next :: rest, stage⟩ = some ⟨next v, rest, s⟩ := by
  simp [step, resume, handed]

theorem Keeps.step (keeps : a.Keeps id) (stepped : a.step = some b)
    (tidy : a.stage.machine.heap.Tidy) (filled : a.stage.machine.exc = some id) :
    b.stage.machine.exc = some id := by
  by_cases raises : a.Raises
  · exact keeps.unreplaced raises b stepped
  · exact (step_exc stepped tidy raises keeps.uncleared).trans filled

/-! ### Steps that are harmless -/

section Harmless

variable {pending : List Pending} {s : Stage}

/-- What a script does next, unless it ends, is nothing that could raise. -/
def Proceeds : Script → Prop
  | .memo .. | .protect .. | .newNative .. | .newLexical .. | .register .. | .walkHeap .. => True
  | _ => False

theorem keeps_proceeding {script : Script} (proceeds : Proceeds script) :
    Keeps id ⟨script, pending, s⟩ := by
  cases script with
  | memo | protect | newNative | newLexical | register | walkHeap =>
      refine ⟨?_, ?_⟩
      · rintro (⟨_, same⟩ | ⟨_, _, _, _, same, -⟩) <;> cases same
      · rintro (⟨_, _, throws⟩ | ⟨_, _, _, same, -⟩)
        · exact throws.elim
        · cases same
  | _ => exact proceeds.elim

/-- A call or a protected region that ends well. -/
theorem keeps_value (v : Value) : Keeps id ⟨.done (.value v), pending, s⟩ where
  uncleared := by
    rintro (⟨_, same⟩ | ⟨o, _, _, _, same, other, -⟩)
    · cases same
    · exact other v (Script.done.inj same).symm
  unreplaced := by
    rintro (⟨_, _, throws⟩ | ⟨o, waiting, rest, same, -, anew⟩)
    · exact throws.elim
    · cases same
      cases waiting with
      | host discipline next => cases discipline <;> exact anew.elim
      | _ => exact anew.elim

end Harmless

end Scene

namespace Situation

attribute [local irreducible] Machine.opened

variable {before start now later : Situation} {name : String} {id : ObjId} {move : Move}
  {allowed : Situation → Move → Prop}

/-! ## The raise that waits -/

/-- The host asks for an exception to be made current, of a class or for an error. -/
inductive AsksToRaise : BridgeRequest .value → Prop
  | ofClass (c : ObjId) (message : String) : AsksToRaise (.raise c message)
  | ofError (e : HostError) : AsksToRaise (.raiseError e)

/-- Host code of a machine raises an exception and is given it. -/
def Obtains (name : String) (id : ObjId) (now later : Situation) : Prop :=
  ∃ r next pending stage s, AsksToRaise r ∧
    now.scene? name = some ⟨.bridge r next, pending, stage⟩ ∧
    stage.askBridge (Bridge.answer r) = some (.obj id, s) ∧ Next now (.act name) later

def Keeping (name : String) (id : ObjId) (now : Situation) (move : Move) : Prop :=
  move ≠ .close name ∧ (move = .act name → ∀ a, now.scene? name = some a → a.Keeps id)

/-- What was raised is the current exception of the machine. -/
def Waits (name : String) (id : ObjId) (now : Situation) : Prop :=
  ∃ message i, now.world.instance? name = some i ∧ i.machine.exc = some id ∧
    i.machine.Belongs id message

theorem AsksToRaise.belongs {r : BridgeRequest .value} {stage s : Stage} (asks : AsksToRaise r)
    (established : stage.machine.Established)
    (asked : stage.askBridge (Bridge.answer r) = some (.obj id, s)) :
    s.machine.exc = some id ∧ ∃ message, s.machine.Belongs id message := by
  cases asks with
  | ofClass c message =>
      obtain ⟨x, same, filled, belongs⟩ :=
        established.belongs_of_hostRaise (Stage.run_of_askBridge asked)
      cases same
      exact ⟨filled, message, belongs⟩
  | ofError e =>
      obtain ⟨x, message, same, filled, belongs⟩ :=
        established.belongs_of_raiseError (Stage.run_of_askBridge asked)
      cases same
      exact ⟨filled, message, belongs⟩

theorem Obtains.waits (run : Run allowed {} before) (obtained : Obtains name id before start) :
    Waits name id start := by
  obtain ⟨r, next, pending, stage, s, asks, shown, asked, moved⟩ := obtained
  obtain ⟨i, b, present, machine, stepped, rfl⟩ := moved.acted shown
  simp only [Scene.step, asked, Option.map_some, Option.some.injEq] at stepped
  subst stepped
  dsimp only at machine
  have established : stage.machine.Established := machine ▸ run.established present
  obtain ⟨filled, message, belongs⟩ := asks.belongs established asked
  exact ⟨message, { i with machine := s.machine }, World.instance?_put_self _, filled, belongs⟩

theorem waits_run (run : Run Anything {} start) (waits : Waits name id start)
    (kept : Run (Keeping name id) start now) : Run Anything {} now ∧ Waits name id now := by
  obtain ⟨message, i, present, current⟩ := waits
  have onward := kept_of_run (P := fun m => m.exc = some id ∧ m.Belongs id message)
    (fun _ _ may => may.1) ?_ run ⟨i, present, current⟩ kept
  · exact ⟨onward.1, message, onward.2⟩
  · intro now a b may shown lawful stepped tidy ⟨filled, belongs⟩
    exact ⟨(may.2 rfl a shown).step stepped tidy filled,
      Scene.step_keeps_belongs lawful stepped tidy filled belongs⟩

/-! ## The return -/

section Return

variable {o : Outcome} {discipline : Discipline} {mark : Nat} {rest : List Pending}
  {stage s : Stage}

/-- What a callable has raised is still current when it has come back. -/
theorem Waits.handedOn (waits : Waits name id now) (run : Run allowed {} now)
    (shown : now.scene? name = some ⟨.done o, .host discipline (gatewayEnd mark) :: rest, stage⟩)
    (handed : stage.handOn discipline o = some (.obj id, s)) :
    s.machine.exc = some id ∧ s.machine.Established ∧ ∃ message, s.machine.Belongs id message := by
  obtain ⟨message, i, present, filled, belongs⟩ := waits
  obtain ⟨j, found, machine, -⟩ := scene?_eq_some shown
  cases present.symm.trans found
  have tidy := tidy_of_shown run shown
  have established := run.established present
  rw [← machine] at filled belongs established
  have stepped := Scene.step_handOn handed (gatewayEnd mark) rest
  obtain ⟨-, hands, same⟩ := Stage.handOn_calm tidy handed
  refine ⟨?_, (Scene.step_evolution stepped tidy).1.established established, message,
    Scene.step_keeps_belongs rfl stepped tidy filled belongs⟩
  by_cases anew : Stage.Reraises discipline o
  · obtain ⟨e, tells, value⟩ := hands anew
    rw [tells.current, ← value]
    rfl
  · exact (same anew).trans filled

/-- What the host has raised is raised when its callable returns it, if nothing has come between. -/
theorem pending_raise_kept (run : Run Anything {} before) (obtained : Obtains name id before start)
    (kept : Run (Keeping name id) start now)
    (shown : now.scene? name = some ⟨.done o, .host discipline (gatewayEnd mark) :: rest, stage⟩)
    (handed : stage.handOn discipline o = some (.obj id, s)) :
    (∀ fuel result last, Stage.run fuel (gatewayEnd mark (.obj id)) s = some (result, last) →
      ∃ e, result = .raised e ∧ e.value = .obj id) ∧
    ∃ e s', Scene.Steps ⟨.done o, .host discipline (gatewayEnd mark) :: rest, stage⟩
      ⟨.done (.raised e), rest, s'⟩ ∧ e.value = .obj id := by
  have obtaining : Run Anything {} start := by
    obtain ⟨-, -, -, -, -, -, -, -, moved⟩ := obtained
    exact run.tail ⟨_, trivial, moved⟩
  obtain ⟨onward, waits⟩ := waits_run obtaining (obtained.waits run) kept
  obtain ⟨filled, established, message, belongs⟩ := waits.handedOn onward shown handed
  constructor
  · intro fuel result last ran
    exact Stage.raises_of_run_gatewayEnd belongs.has filled ran
  · obtain ⟨className, named⟩ :=
      Option.isSome_iff_exists.mp (belongs.realClassName_isSome established)
    have raised := Scene.steps_gatewayEnd_again (belongs.has.tells filled named) rfl mark rest
    exact ⟨_, _, .head (Scene.step_handOn handed (gatewayEnd mark) rest) raised.steps, rfl⟩

end Return

/-! ## A raise that is kept, and raises that are lost -/

/-- What a callable may do between its raise and its return. -/
abbrev Cleanup := Value → Script → Script

/-- A callable that raises, notes what it has raised, cleans up and returns what it has raised. -/
def raising (cleanup : Cleanup) : Callable where
  form := .bound
  discipline := .direct
  body := fun _ _ => .bridge (.raise Builtin.runtimeError.id "boom") fun s =>
    .memo (.store "s" s) fun _ => cleanup s (Script.ret s)

/-- The callable becomes a method of all objects and is called from the host. -/
def callRaising (cleanup : Cleanup) : Script :=
  .defineHosted 1 (.method Builtin.object.id) "work" .bound .direct (raising cleanup).body .none
    fun _ => .sendCaught .nil "work" [] Script.ofResult

def failing : Script :=
  .guest (.raise Builtin.typeError.id "cleanup") fun e => .done (.raised e)

/-- Catches an exception in a protected region. -/
def catches : Cleanup := fun _ next => .protect failing fun _ => next

/-- Ends a protected region well that has raised inside. -/
def swallows : Cleanup := fun _ next =>
  .protect (.guest (.raise Builtin.typeError.id "cleanup") fun _ => Script.ret .nil) fun _ => next

def linkedStage : Stage where
  machine := .opened ⟨1⟩ {}
  bridge := (World.openLinked {} "vm" {}).bridge

/-- The call comes back with what was raised as an ordinary value. -/
def Loses (cleanup : Cleanup) : Prop :=
  ∃ v s, Stage.run 2 (callRaising cleanup) linkedStage = some (.value v, s) ∧
    s.memory.bindings.lookup "s" = some v

theorem loses_iff {cleanup : Cleanup} :
    ((Stage.run 2 (callRaising cleanup) linkedStage).any fun ended =>
      match ended.1 with
      | .value v => ended.2.memory.bindings.lookup "s" = some v
      | _ => false) = true ↔ Loses cleanup := by
  rw [Option.any_eq_true]
  constructor
  · rintro ⟨⟨o, s⟩, ran, lost⟩
    cases o with
    | value v => exact ⟨v, s, ran, of_decide_eq_true lost⟩
    | _ => cases lost
  · rintro ⟨v, s, ran, lost⟩
    exact ⟨(.value v, s), ran, decide_eq_true lost⟩

instance {cleanup : Cleanup} : Decidable (Loses cleanup) := decidable_of_iff _ loses_iff

theorem pending_raise_lost : Loses catches ∧ Loses swallows := by decide +kernel

/-- Does nothing but enter and leave a protected region. -/
def tidies : Cleanup := fun _ next => .protect (Script.ret .nil) fun _ => next

/-- A callable that keeps its raise, run as its bridged method would run it. -/
def hostRaising : Script :=
  .register 1 .bound .direct (raising tidies).body .none fun n =>
    .hostCall .bound 1 .nil n .nil (gatewayEnd 0)

def raiseGate : List Pending := [.host .direct (gatewayEnd 0)]

def aboutToRaise : Scene where
  script := (raising tidies).body ⟨1, .nil, 0⟩ .nil
  pending := raiseGate
  stage :=
    { machine := .opened ⟨1⟩ {}
      bridge := { tables := (Tables.register {} 1 (raising tidies) .none).2 } }

/-- Some moment of the script. -/
def hostingRaise (a : Scene) : Situation :=
  (beginning hostRaising).showing "vm" { machine := .opened ⟨1⟩ {} } a

section Hosting

variable {a : Scene} {id : ObjId}

theorem keeping_hostingRaise (keeps : a.Keeps id) :
    Keeping "vm" id (hostingRaise a) (.act "vm") := by
  refine ⟨nofun, fun _ b shown => ?_⟩
  cases scene?_showing.symm.trans shown
  exact keeps

theorem run_aboutToRaise : Run Anything {} (hostingRaise aboutToRaise) := by
  have begun : Run Anything {} (beginning hostRaising) := run_beginning _ trivial trivial
  rw [← showing_beginning] at begun
  let asking : Scene := ⟨.hostCall .bound 1 .nil 0 .nil (gatewayEnd 0), [], aboutToRaise.stage⟩
  exact (begun.tail ⟨.act "vm", trivial, next_showing (b := asking) rfl rfl⟩).tail
    ⟨.act "vm", trivial, next_showing rfl rfl⟩

end Hosting

theorem pending_raise_kept_tidied : ∃ start now id s s' e,
    Obtains "vm" id (hostingRaise aboutToRaise) start ∧ Run (Keeping "vm" id) start now ∧
      now.scene? "vm" = some ⟨.done (.value (.obj id)), raiseGate, s⟩ ∧
      Scene.Steps ⟨.done (.value (.obj id)), raiseGate, s⟩ ⟨.done (.raised e), [], s'⟩ ∧
      e.value = .obj id := by
  have established := Machine.established_opened ⟨1⟩ {}
  obtain ⟨id, m, ran⟩ : ∃ id m, (Act.hostRaise Builtin.runtimeError.id "boom").run.run
      aboutToRaise.stage.machine = (.ok (.obj id), m) := by
    have ends := Machine.isSome_descendsFrom? (established.not_endless .runtimeError)
    have raisable := established.raisable
      (Machine.Established.descendsFrom_hostClass Builtin.runtimeError.id)
    exact ⟨_, _, Act.run_hostRaise ends raisable "boom" rfl⟩
  have asked := Stage.askBridge_of_run (s := aboutToRaise.stage) ran
  let raised : Stage := { aboutToRaise.stage with machine := m }
  let noted : Stage := (raised.askMemory (.store "s" (.obj id))).2
  let tidying : Scene := ⟨tidies (.obj id) (Script.ret (.obj id)), raiseGate, noted⟩
  let noting : Scene := ⟨.memo (.store "s" (.obj id)) fun _ => tidying.script, raiseGate, raised⟩
  let inside : Scene := ⟨Script.ret .nil,
    .shield noted.machine.depth (fun _ => Script.ret (.obj id)) :: raiseGate,
    noted.onMachine Stage.shield⟩
  have raises : aboutToRaise.step = some noting := by
    change Option.map _ (aboutToRaise.stage.askBridge
      (liftM (Act.hostRaise Builtin.runtimeError.id "boom"))) = _
    rw [asked]
    rfl
  have obtained : Obtains "vm" id (hostingRaise aboutToRaise) (hostingRaise noting) :=
    ⟨_, _, _, _, _, .ofClass _ _, scene?_showing, asked, next_showing raises rfl⟩
  have kept : Run (Keeping "vm" id) (hostingRaise noting)
      (hostingRaise ⟨Script.ret (.obj id), raiseGate, inside.stage.onMachine
        (Stage.unshield noted.machine.depth (.ok .nil))⟩) := by
    have notes : noting.Keeps id := Scene.keeps_proceeding trivial
    have enters : tidying.Keeps id := Scene.keeps_proceeding trivial
    have leaves : inside.Keeps id := Scene.keeps_value .nil
    exact .head ⟨_, keeping_hostingRaise notes, next_showing (b := tidying) rfl rfl⟩
      (.head ⟨_, keeping_hostingRaise enters, next_showing (b := inside) rfl rfl⟩
        (.single ⟨_, keeping_hostingRaise leaves, next_showing rfl rfl⟩))
  obtain ⟨-, e, s', steps, value⟩ :=
    pending_raise_kept run_aboutToRaise obtained kept scene?_showing rfl
  exact ⟨_, _, id, _, s', e, obtained, kept, scene?_showing, steps, value⟩

end Situation

end GuestVM
