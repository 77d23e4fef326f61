import GuestVM.Proofs.Bridge.Calling
import GuestVM.Proofs.Bridge.Hosting
import GuestVM.Proofs.Bridge.Rejecting

/-! # Bridged calls neither drop nor pin objects

While a bridged call runs, a collection frees nothing that the call needs, and when it has returned, the
arena is what it was when the call began, with the result of the call on top.  What the callable has to
do for that is to cut the arena back only to marks that it took itself, so the marks it takes are
counted along with its moves (`Calling`).  Calls that it makes are part of it: a bridged call inside
takes its own mark before it cuts the arena back. -/
set_option autoImplicit false

namespace GuestVM.Situation

attribute [local irreducible] Machine.opened

variable {begun now later : Situation} {name : String} {call : BridgedCall} {marks : List Nat}
  {a b : Scene} {allowed : Situation → Move → Prop}

/-- Moves during a bridged call that began in `begun`, with the marks of the arena that its callable
has taken.  The callable cuts the arena back only to these, and gives back what is immediate or
alive. -/
inductive Calling (call : BridgedCall) (name : String) (begun : Situation) :
    List Nat → Situation → Prop
  | begun : Calling call name begun [] begun
  | marks {marks : List Nat} {now later : Situation} {a : Scene} {next : Nat → Script}
      (before : Calling call name begun marks now) (shown : now.scene? name = some a)
      (within : a.InCallable call.waits) (script : a.script = .guest .arenaSave next)
      (moved : Next now (.act name) later) :
      Calling call name begun (a.stage.machine.heap.arenaSave :: marks) later
  | moves {marks : List Nat} {now later : Situation} {a : Scene} {move : Move}
      (before : Calling call name begun marks now) (shown : now.scene? name = some a)
      (inside : call.waits <:+ a.pending)
      (respects : move = .act name → a.Respects call.waits marks) (moved : Next now move later) :
      Calling call name begun marks later

/-- What runs in the machine goes on in the course of the call, as long as the call waits. -/
theorem Calling.stands (calling : Calling call name begun marks later)
    (run : Run Anything {} begun) (shown : begun.scene? name = some call.begins) :
    Run Anything {} later ∧ ∀ b, later.scene? name = some b →
      call.Course marks b ∧ (call.waits <:+ b.pending → call.Attended b) := by
  induction calling with
  | begun =>
      refine ⟨run, fun b after => ?_⟩
      cases shown.symm.trans after
      exact ⟨.begins call, fun _ => ⟨.refl call.begins, fun _ _ live => live⟩⟩
  | marks _ found within script moved ih =>
      obtain ⟨run, stands⟩ := ih
      obtain ⟨course, attended⟩ := stands _ found
      obtain ⟨d, next, inside⟩ := id within
      have waits := (List.suffix_cons _ _).trans inside
      have tidy := tidy_of_shown run found
      obtain ⟨i, b, -, -, stepped, rfl⟩ := moved.acted found
      refine ⟨run.tail ⟨_, trivial, moved⟩, fun c after => ?_⟩
      cases scene?_showing.symm.trans after
      refine ⟨(course.mark within).step ⟨?_, ?_⟩ waits tidy stepped,
        (attended waits).step tidy stepped⟩
      · intro mark next _ cuts
        cases script.symm.trans cuts
      · intro d next o v ended
        cases script.symm.trans ended
  | moves _ found inside respects moved ih =>
      obtain ⟨run, stands⟩ := ih
      obtain ⟨course, attended⟩ := stands _ found
      have tidy := tidy_of_shown run found
      refine ⟨run.tail ⟨_, trivial, moved⟩, fun b after => ?_⟩
      rcases moved.scene found after with ⟨own, stepped⟩ | ⟨script, pending, machine⟩
      · exact ⟨course.step (respects own) inside tidy stepped, (attended inside).step tidy stepped⟩
      · refine ⟨course.congr script pending machine, fun _ => ?_⟩
        obtain ⟨above, alive⟩ := attended inside
        refine ⟨?_, fun id named live => machine ▸ alive id named live⟩
        unfold Scene.Above
        rwa [pending, machine]

/-! ## While the call runs, and after it -/

/-- What a bridged call can rely on while it runs. -/
structure Guarded (call : BridgedCall) (b : Scene) : Prop where
  /-- What the frame of the call names stays alive. -/
  alive : ∀ id ∈ call.frame.references, call.stage.machine.Live id → b.stage.machine.Live id
  /-- A collection leaves what the frame names, the environment of the proc and the array of the
  arguments as they are. -/
  spares : ∀ next c, b.script = .guest .collect next → b.step = some c →
    ∀ id, call.Needs b.stage.machine id →
      c.stage.machine.object? id = b.stage.machine.object? id
  /-- That array is what the callable is given. -/
  hands : ∀ form index receiver function args next, b.pending = call.waits →
    b.script = .hostCall form index receiver function args next →
      form = call.form ∧ function = call.number.toInt.toNat ∧ receiver = call.frame.receiver ∧
        args = call.stage.handed call.form

/-- A bridged call has just returned `r`. -/
structure Returned (call : BridgedCall) (name : String) (later : Situation)
    (r : Except Raised Value) (b : Scene) : Prop where
  script : b.script = call.next r
  pending : b.pending = call.outer
  /-- The arena is that of the beginning, with nothing but the result on top. -/
  arena : b.stage.machine.heap.arena.toList =
    call.arena ++ (Outcome.carried r).asObj.toList
  /-- So the result is alive until the arena is cut back below it. -/
  survives : ∀ id last, (Outcome.carried r).asObj = some id →
    Run (Sheltering name call.arena.length) later last →
      Sheltered name call.arena.length id last

theorem bridged_calls_balanced (run : Run allowed {} begun)
    (shown : begun.scene? name = some call.begins)
    (calling : Calling call name begun marks later) (after : later.scene? name = some b) :
    (call.waits <:+ b.pending → Guarded call b) ∧
      (¬ call.waits <:+ b.pending → ∃ r, Returned call name later r b) := by
  obtain ⟨run, stands⟩ := calling.stands (run.mono fun _ _ _ => trivial) shown
  obtain ⟨course, attended⟩ := stands b after
  have tidy := tidy_of_shown run after
  constructor
  · intro inside
    refine ⟨(attended inside).alive, fun next c script stepped id needed => ?_, ?_⟩
    · exact (attended inside).spares course inside tidy script stepped needed
    · intro form index receiver function args next pending script
      exact course.hands pending script
  · intro outside
    cases course with
    | preparing prepares pending => exact (outside (pending ▸ List.suffix_rfl)).elim
    | running d within => exact (outside ((List.suffix_cons _ _).trans within)).elim
    | concluding v concludes live pending => exact (outside (pending ▸ List.suffix_rfl)).elim
    | returned r script pending kept live =>
        refine ⟨r, script, pending, kept, fun id last object onward => ?_⟩
        obtain ⟨j, present, machine, -⟩ := scene?_eq_some after
        refine (sheltered_run run ⟨j, present, ?_, ?_⟩ onward).2
        · rw [← machine, ← Array.getElem?_toList, kept, object]
          simp
        · rw [← machine]
          exact live id object

/-! ## A callable that makes a string -/

/-- Makes a string, and cuts the arena back to where it was before. -/
def mint : Script :=
  .guest .arenaSave fun mark => .guest (.stringNew [104, 105]) fun v =>
    .guest (.arenaRestore mark) fun _ => Script.ret v

def minting : Callable := ⟨.free, .direct, fun _ _ => mint⟩

/-- Calls a proc with one argument, if it could be made. -/
def callMade : Except Raised Value → Script
  | .ok proc => .callProc proc .nil [.int 7] Script.ofResult
  | .error e => .done (.raised e)

/-- The callable becomes a proc, which is called. -/
def callMinting : Script :=
  .register 1 .free .direct minting.body .any fun n => .bridge (.callableProc n) callMade

def mintingBridge : Bridge :=
  { (World.openLinked {} "vm" {}).bridge with tables := (Tables.register {} 1 minting .any).2 }

/-- What the call finds when its proc is in the machine. -/
structure CanMint (m : Machine) (p e : ObjId) : Prop where
  tidy : m.heap.Tidy
  bridged : m.Bridged p e .free 0
  handle : m.handle = ⟨1⟩
  exc : m.exc = none
  room : m.depth < m.config.maxCallDepth.toNat

def mintingCall {m : Machine} {p e : ObjId} (can : CanMint m p e) : BridgedCall where
  form := .free
  frame := ⟨none, p, .nil, [.int 7], .nil⟩
  number := 0
  depth := m.depth
  next := Script.ofResult
  outer := []
  stage := { machine := m.inFrame ⟨none, p, .nil, [.int 7], .nil⟩, bridge := mintingBridge }
  running := rfl
  numbered := ⟨can.bridged.numbered.native, can.bridged.numbered.first⟩
  proper := by decide

/-- The proc of the callable is made, and then the call can begin. -/
theorem canMint_callableProc {m : Machine} (tidy : m.heap.Tidy) (handle : m.handle = ⟨1⟩)
    (exc : m.exc = none) (room : m.depth < m.config.maxCallDepth.toNat) :
    ∃ p e m', (Act.callableProc .free 0).run.run m = (.ok (.obj p), m') ∧ CanMint m' p e := by
  obtain ⟨p, made, ran, -, -⟩ := Act.run_newBridged tidy .free 0
  have does := Act.does_newBridged (g := {}) (m := m) .free 0 tidy
  rw [ran] at does
  obtain ⟨-, -, ⟨e, bridged⟩, -⟩ := does
  have cut := Act.run_inArenaScope (m := m) (Act.newBridged .free 0)
  rw [ran] at cut
  have whole : ∃ m', (Act.callableProc .free 0).run.run m = (.ok (.obj p), m') ∧
      m'.Bridged p e .free 0 := by
    unfold Act.callableProc
    rw [Act.run_ok_bind cut]
    exact ⟨_, rfl, bridged.proc, bridged.env⟩
  obtain ⟨m', ran, bridged⟩ := whole
  have calm := Act.calm_callableProc .free 0 m tidy
  rw [Act.CalmAt, ran] at calm
  obtain ⟨steady, silent⟩ := calm
  have evolution := (Act.does_callableProc (g := {}) (m := m) .free 0 tidy)
  rw [ran] at evolution
  refine ⟨p, e, m', ran, steady.tidy tidy, bridged, evolution.1.handle_eq.trans handle,
    silent.trans exc, ?_⟩
  rw [Machine.depth, steady.frames, evolution.1.config_eq]
  exact room

/-- Steps of the call itself, while nothing waits but what waits for the call. -/
abbrev OwnSteps (call : BridgedCall) : Scene → Scene → Prop :=
  Relation.ReflTransGen fun a b => (a.pending = call.waits ∧ a.Lawful) ∧ a.step = some b

theorem Calling.own {now : Situation} {i : Instance}
    (calling : Calling call name begun marks (now.showing name i a)) (steps : OwnSteps call a b) :
    Calling call name begun marks (now.showing name i b) := by
  induction steps with
  | refl => exact calling
  | tail _ stepped ih =>
      obtain ⟨⟨pending, lawful⟩, stepped⟩ := stepped
      refine .moves ih scene?_showing (pending ▸ List.suffix_rfl) (fun _ => ⟨?_, ?_⟩)
        (next_showing stepped lawful)
      · intro mark next within
        obtain ⟨d, k, inside⟩ := within
        exact (Pending.not_cons_suffix (pending ▸ inside)).elim
      · intro d next o v _ waiting
        have whole := congrArg List.length (pending.symm.trans waiting)
        simp at whole

section Minting

variable {m : Machine} {p e : ObjId}

theorem found_minting (can : CanMint m p e) : mintingBridge.tables.lookup
    (mintingCall can).stage.ownIndex 0 = some ⟨0, .any, minting⟩ := by
  have own : (mintingCall can).stage.ownIndex = mintingBridge.registry.indexOf m.handle := rfl
  rw [own, can.handle]
  rfl

theorem steps_mintingCall (can : CanMint m p e) :
    OwnSteps (mintingCall can) (mintingCall can).begins
      ⟨mint, .host .direct (gatewayEnd (mintingCall can).arena.length) :: (mintingCall can).waits,
        (mintingCall can).stage.handing .free⟩ := by
  let s := (mintingCall can).stage
  have attempted : (Act.attempt (Act.ownEnvGet 0)).run.run s.machine =
      (.ok (.ok (.int 0)), s.machine) := by
    rw [Act.run_attempt, Act.run_ownEnvGet (mintingCall can).running (mintingCall can).numbered]
    rfl
  have reads : (mintingCall can).begins.step =
      some ⟨gatewayRun .free .nil 0, (mintingCall can).waits, s⟩ :=
    Scene.step_guest_of_run (r := .ownEnvGet 0) attempted _ _
  have admitted : (s.handing .free).ask (Act.resolveCall ((s.handing .free).bridge.tables.lookup
      s.ownIndex 0) .free 0 (s.handed .free)) = some (.ok minting, s.handing .free) := by
    rw [Stage.handing_bridge]
    change Stage.ask _ (Act.resolveCall (mintingBridge.tables.lookup s.ownIndex 0) .free 0 _) = _
    rw [found_minting can]
    have admits : CallableSlot.Admits ⟨0, .any, minting⟩ s.machine.args.length :=
      fun _ => .inl rfl
    exact Stage.ask_of_run (Act.run_resolveCall can.tidy admits)
  have enters : Scene.step ⟨(mintingCall can).request s.ownIndex, (mintingCall can).waits,
      s.handing .free⟩ = some ⟨mint, .host .direct (gatewayEnd (mintingCall can).arena.length) ::
        (mintingCall can).waits, s.handing .free⟩ := by
    change Option.map _ ((s.handing .free).ask (Act.resolveCall
      ((s.handing .free).bridge.tables.lookup s.ownIndex 0) .free 0 (s.handed .free))) = _
    rw [admitted]
    rfl
  exact .head ⟨⟨rfl, rfl⟩, reads⟩ (.head ⟨⟨rfl, rfl⟩, rfl⟩ (.head ⟨⟨rfl, rfl⟩, rfl⟩
    (.head ⟨⟨rfl, rfl⟩, rfl⟩ (.head ⟨⟨rfl, rfl⟩, rfl⟩ (.single ⟨⟨rfl, rfl⟩, enters⟩)))))

/-- The end of a call whose callable has given back a value while no exception is current. -/
theorem steps_gatewayEnd_value (call : BridgedCall) (id : ObjId) {s : Stage}
    (exc : s.machine.exc = none) :
    ∃ t, OwnSteps call ⟨gatewayEnd call.arena.length (.obj id), call.waits, s⟩
      ⟨call.next (.ok (.obj id)), call.outer, t⟩ := by
  let kept : Stage := s.holding call.arena.length id
  have none : kept.machine.currentException ≠ some (.obj id) := by
    have same : kept.machine.exc = s.machine.exc := rfl
    simp [Machine.currentException, same, exc]
  have passes : (Act.attempt (Act.raiseIfLive (.obj id))).run.run kept.machine =
      (.ok (.ok (.obj id)), kept.machine) := by
    rw [Act.run_attempt, Act.run_raiseIfLive_of_other fun both => none both.2]
  exact ⟨_, .head ⟨⟨rfl, rfl⟩, rfl⟩ (.head ⟨⟨rfl, rfl⟩, rfl⟩
    (.head ⟨⟨rfl, rfl⟩, Scene.step_raiseIfLive passes _⟩ (.single ⟨⟨rfl, rfl⟩, rfl⟩)))⟩

/-- The callable takes its mark, makes its string and cuts the arena back to its mark. -/
theorem calling_mint {now : Situation} {i : Instance} {s : Stage} {ends : Value → Script}
    (tidy : s.machine.heap.Tidy) (exc : s.machine.exc = none)
    (calling : Calling call name begun []
      (now.showing name i ⟨mint, .host .direct ends :: call.waits, s⟩)) :
    ∃ (mark : Nat) (id : ObjId) (t : Stage), t.machine.exc = none ∧
      Calling call name begun [mark] (now.showing name i ⟨ends (.obj id), call.waits, t⟩) := by
  let o : Object := { cls := Builtin.string.id, body := .string [104, 105] }
  let made : Stage := s.onMachine (·.withNew o)
  let v : Value := .obj (s.machine.newId o)
  let mark := s.machine.heap.arenaSave
  let cut : Stage :=
    made.onMachine fun m => { m with heap := m.heap.arenaRestore mark }
  let host : List Pending := .host .direct ends :: call.waits
  have live : made.machine.Live (s.machine.newId o) := Machine.live_newId tidy o
  have inside : call.waits <:+ host := List.suffix_cons _ _
  have marked : Calling call name begun [mark] (now.showing name i
      ⟨.guest (.stringNew [104, 105]) fun v => .guest (.arenaRestore mark) fun _ => Script.ret v,
        host, s⟩) :=
    .marks calling scene?_showing ⟨_, _, List.suffix_rfl⟩ rfl (next_showing rfl rfl)
  have held : Calling call name begun [mark] (now.showing name i
      ⟨.guest (.arenaRestore mark) fun _ => Script.ret v, host, made⟩) := by
    refine .moves marked scene?_showing inside (fun _ => ⟨?_, ?_⟩) (next_showing rfl rfl)
    · intro _ _ _ script
      cases script
    · intro _ _ _ _ script
      cases script
  have given : Calling call name begun [mark] (now.showing name i ⟨Script.ret v, host, cut⟩) := by
    refine .moves held scene?_showing inside (fun _ => ⟨?_, ?_⟩) (next_showing rfl rfl)
    · intro _ _ _ script
      cases script
      exact List.mem_singleton_self _
    · intro _ _ _ _ script
      cases script
  refine ⟨mark, s.machine.newId o, cut, exc,
    .moves given scene?_showing inside (fun _ => ⟨?_, ?_⟩) (next_showing rfl rfl)⟩
  · intro _ _ _ script
    cases script
  · intro d next o w script _ gives x object
    cases script
    cases gives
    cases object
    exact live

/-- The bridge makes a proc for the callable. -/
theorem step_callMinting {m' : Machine} (handle : m.handle = ⟨1⟩)
    (ran : (Act.callableProc .free 0).run.run m = (.ok (.obj p), m')) :
    Scene.step ⟨.bridge (.callableProc 0) callMade, [],
        { machine := m, bridge := mintingBridge }⟩ =
      some ⟨.callProc (.obj p) .nil [.int 7] Script.ofResult, [],
        { machine := m', bridge := mintingBridge }⟩ := by
  let s : Stage := { machine := m, bridge := mintingBridge }
  have form : mintingBridge.formOf m.handle 0 .free = .free := by
    rw [handle]
    rfl
  have made : s.askBridge (Bridge.answer (.callableProc 0)) =
      some (.ok (.obj p), { s with machine := m' }) := by
    change s.askBridge (Bridge.seeing fun b h =>
      Act.attempt (Act.callableProc (b.formOf h 0 .free) 0)) = _
    rw [Stage.askBridge_seeing]
    change s.ask (Act.attempt (Act.callableProc (mintingBridge.formOf m.handle 0 .free) 0)) = _
    rw [form]
    apply Stage.ask_of_run
    rw [Act.run_attempt, ran]
    rfl
  change Option.map _ (s.askBridge (Bridge.answer (.callableProc 0))) = _
  rw [made]
  rfl

/-- The proc is called. -/
theorem step_callMade (can : CanMint m p e) :
    Scene.step ⟨.callProc (.obj p) .nil [.int 7] Script.ofResult, [],
        { machine := m, bridge := mintingBridge }⟩ = some (mintingCall can).begins := by
  obtain ⟨data, isProc, code, -⟩ := can.bridged.procData?
  rw [Scene.step_callProc isProc can.room, code]
  rfl

end Minting

/-- The call comes about. -/
theorem run_mintingCall : ∃ (m : Machine) (p e : ObjId) (can : CanMint m p e) (now : Situation)
    (i : Instance), Run Anything {} (now.showing "vm" i (mintingCall can).begins) := by
  have original := Machine.original_opened ⟨1⟩ {}
  have handle := Machine.handle_opened ⟨1⟩ {}
  obtain ⟨p, e, m, ran, can⟩ := canMint_callableProc original.tidy handle original.exc
    (Nat.lt_of_succ_lt (Machine.room_opened ⟨1⟩))
  let i : Instance := { machine := .opened ⟨1⟩ {}, link := some 1 }
  have begun : Run Anything {} (beginningLinked callMinting) :=
    run_beginningLinked _ trivial trivial
  have registers : Next (beginningLinked callMinting) (.act "vm")
      ((beginningLinked callMinting).showing "vm" i ⟨.bridge (.callableProc 0) callMade, [],
        { machine := i.machine, bridge := mintingBridge }⟩) := .act "vm" i _ _ rfl rfl rfl rfl
  exact ⟨m, p, e, can, _, i, begun.trans (.head ⟨_, trivial, registers⟩ (run_showing
    (.head ⟨rfl, step_callMinting handle ran⟩ (.single ⟨rfl, step_callMade can⟩))))⟩

theorem bridged_calls_balanced_minted : ∃ (call : BridgedCall) (begun later : Situation)
    (mark : Nat) (id : ObjId) (t : Stage), Run Anything {} begun ∧
      begun.scene? "vm" = some call.begins ∧ Calling call "vm" begun [mark] later ∧
      later.scene? "vm" = some ⟨call.next (.ok (.obj id)), call.outer, t⟩ ∧
      ∃ r, Returned call "vm" later r ⟨call.next (.ok (.obj id)), call.outer, t⟩ := by
  obtain ⟨m, p, e, can, now, i, run⟩ := run_mintingCall
  have began : Calling (mintingCall can) "vm" (now.showing "vm" i (mintingCall can).begins) []
      (now.showing "vm" i (mintingCall can).begins) := .begun
  obtain ⟨mark, id, u, exc, minted⟩ := calling_mint (can.tidy.alloc _) can.exc
    (began.own (steps_mintingCall can))
  obtain ⟨v, last⟩ := steps_gatewayEnd_value (mintingCall can) id exc
  have calling := minted.own last
  have after : Situation.scene? (now.showing "vm" i
      ⟨(mintingCall can).next (.ok (.obj id)), (mintingCall can).outer, v⟩) "vm" = _ := scene?_showing
  refine ⟨mintingCall can, _, _, mark, id, v, run, scene?_showing, calling, after, ?_⟩
  refine (bridged_calls_balanced run scene?_showing calling after).2 fun inside => ?_
  have shorter := inside.length_le
  simp [mintingCall, BridgedCall.waits] at shorter

end GuestVM.Situation
