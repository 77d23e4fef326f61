import GuestVM.Number.Power
import GuestVM.Proofs.Bridge.Reaching
import GuestVM.Proofs.Bridge.Returning

/-! # How a call runs its callable

A call by name that finds a bridged proc pushes a frame, reads the number of the callable out of the
environment of the proc, and runs the callable under the index of its machine.  What is left to do
when the callable has ended calls no other code. -/
set_option autoImplicit false

namespace GuestVM

/-- The slot's own check of a number of arguments, which only free callables make. -/
def CallableSlot.Admits (slot : CallableSlot) (argc : Nat) : Prop :=
  slot.form = .free → slot.aspec.required = 0 ∨ slot.aspec.accepts argc = true

structure Machine.Enters (m : Machine) (receiver : Value) (mid : Sym) (args : List Value)
    (method : Method) : Prop where
  found : m.findMethod (m.classOf receiver) mid = some method
  few : args.length ≤ m.config.funcallArgcMax.toNat
  fits : method.noArg = true → args = []
  room : m.depth < m.config.maxCallDepth.toNat

/-- The environment of a native proc begins with an integer. -/
structure Machine.Numbered (m : Machine) (p : ObjId) (number : Int64) : Prop where
  native : m.procIsNative p = true
  first : ∃ e values isShared, m.procEnv p = some e ∧ m.env? e = some (values, isShared) ∧
    values[0]? = some (.int number)

theorem Machine.Bridged.numbered {m : Machine} {p e : ObjId} {form : Form} {n : Nat}
    (bridged : m.Bridged p e form n) : m.Numbered p (Int64.ofNat n) := by
  obtain ⟨data, isProc, -, native, -⟩ := bridged.procData?
  obtain ⟨isShared, holds⟩ := bridged.env?
  exact ⟨by simp [procIsNative, isProc, native], e, _, isShared, bridged.procEnv, holds, rfl⟩

def Machine.inFrame (m : Machine) (f : Frame) : Machine := { m with frames := f :: m.frames }

namespace Act

variable {m : Machine} {p e : ObjId} {form : Form} {n : Nat}

theorem run_enter {frame : Frame} {data : ProcData} (isProc : m.procData? frame.proc = some data)
    (room : m.depth < m.config.maxCallDepth.toNat) :
    (enter frame).run.run m =
      (.ok (data.body.script frame.receiver frame.args), m.inFrame frame) := by
  unfold enter
  rw [run_get_bind, if_neg (Nat.not_le.mpr room)]
  simp only [isProc]
  rfl

theorem run_enterMethod {receiver block : Value} {mid : Sym} {args : List Value} {method : Method}
    {data : ProcData} (enters : m.Enters receiver mid args method)
    (isProc : m.procData? method.proc = some data) :
    (enterMethod receiver mid args block).run.run m =
      (.ok (data.body.script receiver args),
        m.inFrame ⟨some mid, method.proc, receiver, args, block⟩) := by
  have few : ¬ m.config.funcallArgcMax.toNat < args.length := Nat.not_lt.mpr enters.few
  have fits : ¬ (method.noArg = true ∧ (!args.isEmpty) = true) := by
    intro given'
    obtain ⟨noArg, given⟩ := given'
    rw [enters.fits noArg] at given
    cases given
  have found := Machine.findMethod?_of_findMethod enters.found
  unfold enterMethod
  rw [run_get_bind]
  simp only [if_neg few, found]
  change ((if method.noArg = true ∧ (!args.isEmpty) = true then _ else _ : Act Script)).run.run m = _
  rw [if_neg fits]
  exact run_enter isProc enters.room

theorem run_enterProc {proc : ObjId} {data : ProcData} (isProc : m.procData? proc = some data)
    (room : m.depth < m.config.maxCallDepth.toNat) (self : Value) (args : List Value) :
    (enterProc (.obj proc) self args).run.run m =
      (.ok (data.body.script self args), m.inFrame ⟨none, proc, self, args, .nil⟩) := by
  obtain ⟨o, present, body⟩ := Machine.procData?_eq_some.mp isProc
  have typed : m.typeOf (.obj proc) = .proc := by
    rw [Machine.typeOf_obj present, Object.tag, body]
  have expected : (expectProc (.obj proc)).run.run m = (.ok proc, m) := by
    unfold expectProc
    rw [run_get_bind]
    simp only [Value.asObj, if_pos typed]
    rfl
  unfold enterProc
  rw [run_bind, expected]
  exact run_enter isProc room

theorem run_ownEnvGet {frame : Frame} {number : Int64} (running : m.frames.head? = some frame)
    (numbered : m.Numbered frame.proc number) :
    (ownEnvGet 0).run.run m = (.ok (.int number), m) := by
  obtain ⟨e, values, isShared, env, holds, first⟩ := numbered.first
  have owned : (ownedEnv frame.proc).run.run m = (.ok e, m) := by
    unfold ownedEnv
    rw [run_get_bind]
    simp only [numbered.native, env]
    rfl
  obtain ⟨filled, -⟩ := Array.getElem?_eq_some_iff.mp first
  have size : m.envSize e = values.size := by
    simp [Machine.envSize, holds]
  have within : ¬ ((0 : Int64) < 0 ∨ (values.size : Int) ≤ (0 : Int64).toInt) := by
    rw [Int64.toInt_zero]
    rintro (negative | empty)
    · exact Int64.lt_irrefl negative
    · omega
  have position : (envPosition e 0).run.run m = (.ok 0, m) := by
    unfold envPosition
    rw [run_get_bind, size, if_neg within]
    rfl
  unfold ownEnvGet
  rw [run_get_bind, running]
  change (procEnvGet frame.proc 0).run.run m = _
  unfold procEnvGet
  rw [run_ok_bind owned, run_ok_bind position, run_get_bind, holds]
  simp only [Option.bind_some, first]
  rfl

theorem run_expectType {id : ObjId} {t : ValueType} (typed : m.typeOf (.obj id) = t) :
    (expectType (.obj id) t).run.run m = (.ok id, m) :=
  expectType_eq (.obj id) t ▸ run_expecting typed _

theorem run_arrayLen {id : ObjId} {o : Object} {items : Array Value}
    (present : m.object? id = some o) (body : o.body = .array items) :
    (arrayLen (.obj id)).run.run m = (.ok items.size, m) := by
  have typed : m.typeOf (.obj id) = .array := by
    rw [Machine.typeOf_obj present, Object.tag, body]
  have held : m.items (.obj id) = items := by
    simp [Machine.items, Machine.body?, Value.asObj, present, body]
  have read : (arrayItems (.obj id)).run.run m = (.ok items, m) := by
    unfold arrayItems
    rw [run_ok_bind (run_expectType typed), run_get_bind, held]
    rfl
  unfold arrayLen
  rw [run_bind, read]
  rfl

theorem run_checkArity {id : ObjId} {o : Object} {items : Array Value} {aspec : Aspec}
    (present : m.object? id = some o) (body : o.body = .array items)
    (admits : aspec.required = 0 ∨ aspec.accepts items.size = true) :
    (checkArity aspec (.obj id)).run.run m = (.ok none, m) := by
  unfold checkArity
  by_cases nothing : aspec.required = 0
  · rw [if_pos nothing]
    rfl
  · have accepted := admits.resolve_left nothing
    rw [if_neg nothing]
    change (attempt (arrayLen (.obj id)) >>= _).run.run m = _
    rw [run_bind, run_attempt, run_arrayLen present body]
    simp only [if_pos accepted]
    rfl

/-- A callable of the form that is asked for runs, if it admits the arguments. -/
theorem run_resolveCall {slot : CallableSlot} {s : Stage} (tidy : s.machine.heap.Tidy)
    (admits : slot.Admits s.machine.args.length) :
    (resolveCall (some slot) slot.form n (s.handed slot.form)).run.run
        (s.handing slot.form).machine =
      (.ok (.ok slot.callable), (s.handing slot.form).machine) := by
  cases form : slot.form with
  | bound =>
      simp only [resolveCall, form]
      rfl
  | free =>
      have present : (s.handing .free).machine.object? (s.machine.newId s.argumentArray) =
          some s.argumentArray := by
        have made := Machine.object?_withNew tidy s.argumentArray
          (s.machine.newId s.argumentArray)
        rwa [if_pos rfl] at made
      have checked : (checkArity slot.aspec (s.handed .free)).run.run (s.handing .free).machine =
          (.ok none, (s.handing .free).machine) :=
        run_checkArity present rfl (by simpa using admits form)
      unfold resolveCall
      simp only [form]
      change (checkArity slot.aspec (s.handed .free) >>= _).run.run (s.handing .free).machine = _
      rw [run_bind, checked]
      rfl

end Act

/-! ## Runs of code that runs code -/

namespace Stage

variable {enter : Script → Player} {fuel : Nat} {s t : Stage}

theorem runWith_bridge {a : Answer} (r : BridgeRequest a) (next : a.Carrier → Script) (s : Stage) :
    runWith enter fuel (.bridge r next) s =
      (s.askBridge (Bridge.answer r)).bind fun (x, t) => runWith enter fuel (next x) t := by
  simp only [runWith]
  cases s.askBridge (Bridge.answer r) <;> rfl

theorem runWith_raiseIfLive (v : Value) (s : Stage) :
    runWith enter fuel (.bridge (.raiseIfLive v) Script.ofResult) s =
      (s.askBridge (Bridge.answer (.raiseIfLive v))).bind fun (x, t) =>
        some (Outcome.ofExcept x, t) :=
  runWith_bridge (.raiseIfLive v) Script.ofResult s

theorem runWith_call {receiver block : Value} {mid : Sym} {args : List Value} {code : Script}
    {next : Except Raised Value → Script}
    (entered : s.act (Act.enterMethod receiver mid args block) = some (.ok code, t)) :
    runWith enter fuel (.call receiver mid args block next) s =
      (enter code t).bind fun (o, after) => (after.surface o).bind fun (r, last) =>
        runWith enter fuel (next r) (last.onMachine (·.unwound s.machine.depth)) := by
  simp only [runWith, callWith, entered]
  cases enter code t with
  | none => rfl
  | some ended =>
      obtain ⟨o, after⟩ := ended
      dsimp only [Option.bind_some]
      cases after.surface o <;> rfl

theorem runWith_protect {body : Script} {next : Except Raised Value → Script} :
    runWith enter fuel (.protect body next) s =
      (runWith enter fuel body (s.onMachine shield)).bind fun (o, after) =>
        (after.surface o).bind fun (r, last) =>
          runWith enter fuel (next r) (last.onMachine (unshield s.machine.depth r)) := by
  simp only [runWith, protectWith]
  cases runWith enter fuel body (s.onMachine shield) with
  | none => rfl
  | some ended =>
      obtain ⟨o, after⟩ := ended
      dsimp only [Option.bind_some]
      cases after.surface o <;> rfl

theorem runWith_hostCall {form : Form} {index function : Nat} {receiver args : Value}
    {next : Value → Script} {c : Callable}
    (admitted : s.ask (Act.resolveCall (s.bridge.tables.lookup index function) form function args) =
      some (.ok c, t)) :
    runWith enter fuel (.hostCall form index receiver function args next) s =
      (enter (c.body ⟨index, receiver, function⟩ args) t).bind fun (o, after) =>
        (after.handOn c.discipline o).bind fun (v, last) => runWith enter fuel (next v) last := by
  simp only [runWith, hostCallWith, admitted]
  cases enter (c.body ⟨index, receiver, function⟩ args) t with
  | none => rfl
  | some ended =>
      obtain ⟨o, after⟩ := ended
      dsimp only [Option.bind_some]
      cases after.handOn c.discipline o <;> rfl

/-- The end of a bridged call enters no code, so it needs no fuel and no way to do so. -/
theorem runWith_gatewayEnd (mark : Nat) (v : Value) :
    runWith enter fuel (gatewayEnd mark v) s = run 0 (gatewayEnd mark v) s := by
  have raising : ∀ t, runWith enter fuel (.bridge (.raiseIfLive v) Script.ofResult) t =
      run 0 (.bridge (.raiseIfLive v) Script.ofResult) t :=
    fun t => (runWith_raiseIfLive v t).trans (runWith_raiseIfLive v t).symm
  have keeping : ∀ id t, runWith enter fuel (.guest (.arenaPush id) fun _ =>
      .bridge (.raiseIfLive v) Script.ofResult) t =
        run 0 (.guest (.arenaPush id) fun _ => .bridge (.raiseIfLive v) Script.ofResult) t :=
    fun id t => raising (t.onMachine fun m => { m with heap := m.heap.arenaPush id })
  let cut := s.onMachine fun m => { m with heap := m.heap.arenaRestore mark }
  cases kept : v.asObj with
  | none =>
      simp only [gatewayEnd, kept]
      exact raising cut
  | some id =>
      simp only [gatewayEnd, kept]
      exact keeping id cut

/-- What is left of a call by name from the host when its callable has ended: its outcome is handed
on, the bridged call, the call and the protected region end. -/
def returned (depth mark : Nat) (d : Discipline) (o : Outcome) (s : Stage) :
    Option (Except Raised Value × Stage) :=
  (s.handOn d o).bind fun (v, s) =>
    (run 0 (gatewayEnd mark v) s).bind fun (o, s) =>
      (s.surface o).map fun (r, s) => (r, s.onMachine fun m => unshield depth r (m.unwound depth))

end Stage

/-! ## The call -/

namespace Stage

/-- The stage on which a call by name from the host looks for its method. -/
def readied (s : Stage) (name : String) : Stage :=
  s.onMachine fun m => { shield m with symbols := (m.symbols.intern name).2 }

/-- The stage inside the call, its proc running. -/
def inCall (s : Stage) (receiver : Value) (name : String) (args : List Value) (proc : ObjId) :
    Stage :=
  (s.readied name).onMachine (·.inFrame
    { mid := some (s.machine.symbols.intern name).1, proc := proc, receiver := receiver
      args := args, block := .nil })

end Stage

/-- What a callable of a form is given besides its context: nothing, or an array of the arguments. -/
def Form.Gives (form : Form) (args : List Value) (given : Value) (m : Machine) : Prop :=
  match form with
  | .bound => given = .nil
  | .free => ∃ id o, given = .obj id ∧ m.object? id = some o ∧ o.body = .array args.toArray

theorem Stage.gives_handed {s : Stage} (tidy : s.machine.heap.Tidy) (form : Form) :
    form.Gives s.machine.args (s.handed form) (s.handing form).machine := by
  cases form with
  | bound => rfl
  | free =>
      have made := Machine.object?_withNew tidy s.argumentArray (s.machine.newId s.argumentArray)
      rw [if_pos rfl] at made
      exact ⟨_, _, rfl, made, rfl⟩

theorem Stage.handing_args (s : Stage) (form : Form) :
    (s.handing form).machine.args = s.machine.args := by
  cases form <;> rfl

namespace Scene

variable {s inside : Stage} {e : ObjId} {form : Form} {n : Nat} {slot : CallableSlot}
  {receiver : Value} {name : String} {args : List Value} {method : Method}

theorem leads_gateway {frame : Frame} (running : s.machine.frames.head? = some frame)
    (bridged : s.machine.Bridged frame.proc e form n) (small : n < twoTo 63) (receiver : Value) :
    LeadsTo (gateway form receiver) s
      (.hostCall form s.ownIndex receiver n (s.handed form)
        (gatewayEnd s.machine.heap.arenaSave)) (s.handing form) := by
  have number : (Int64.ofNat n).toInt = n := Int64.toInt_ofNat_of_lt small
  have proper : (Value.int (Int64.ofNat n)).asInt.filter (0 ≤ ·) = some (Int64.ofNat n) := by
    have positive : (0 : Int64) ≤ Int64.ofNat n := by
      rw [Int64.le_iff_toInt_le, number, Int64.toInt_zero]
      omega
    simp [Value.asInt, positive]
  have attempted : (Act.attempt (Act.ownEnvGet 0)).run.run s.machine =
      (.ok (.ok (.int (Int64.ofNat n))), s.machine) := by
    rw [Act.run_attempt, Act.run_ownEnvGet running bridged.numbered]
  have asked : s.ask (Act.answer (.ownEnvGet 0)) = some (.ok (.int (Int64.ofNat n)), s) :=
    Stage.ask_of_run attempted
  have onward := leads_gatewayRun (s := s) form receiver (Int64.ofNat n).toInt.toNat
  rw [number, Int.toNat_natCast] at onward
  apply (LeadsTo.guest asked).trans
  dsimp only
  rw [proper]
  dsimp only
  rwa [number, Int.toNat_natCast]

theorem step_callProc {proc : ObjId} {self : Value} {args : List Value}
    {data : ProcData} (isProc : s.machine.procData? proc = some data)
    (room : s.machine.depth < s.machine.config.maxCallDepth.toNat)
    (next : Except Raised Value → Script) (pending : List Pending) :
    step ⟨.callProc (.obj proc) self args next, pending, s⟩ =
      some ⟨data.body.script self args, .call s.machine.depth next :: pending,
        s.onMachine (·.inFrame ⟨none, proc, self, args, .nil⟩)⟩ := by
  have ran := Act.run_enterProc isProc room self args
  simp only [step, entering, Stage.act, ran]
  rfl

theorem act_enterMethod
    (enters : s.machine.Enters receiver (s.machine.symbols.intern name).1 args method)
    (bridged : s.machine.Bridged method.proc e form n) :
    (s.readied name).act
        (Act.enterMethod receiver (s.machine.symbols.intern name).1 args .nil) =
      some (.ok (gateway form receiver), s.inCall receiver name args method.proc) := by
  obtain ⟨data, isProc, code, -⟩ := bridged.procData?
  have heap : (s.readied name).machine.heap = s.machine.heap := rfl
  have passes : (s.readied name).machine.Enters receiver (s.machine.symbols.intern name).1 args
      method := by
    refine ⟨?_, enters.few, enters.fits, enters.room⟩
    rw [Machine.findMethod_congr (congrArg _ heap), Machine.classOf_congr (congrArg _ heap)]
    exact enters.found
  have ran : (Act.enterMethod receiver (s.machine.symbols.intern name).1 args .nil).run.run
      (s.readied name).machine = _ := Act.run_enterMethod passes isProc
  rw [code] at ran
  simp only [Stage.act, ran]
  rfl

theorem leads_send (s : Stage) (receiver : Value) (name : String) (args : List Value) :
    LeadsTo (.send receiver name args .nil .ofResult) (s.onMachine Stage.shield)
      (.call receiver (s.machine.symbols.intern name).1 args .nil .ofResult) (s.readied name) := by
  have named : (s.onMachine Stage.shield).ask (Act.answer (.intern name)) =
      some ((s.machine.symbols.intern name).1, s.readied name) := rfl
  exact .guest named

/-- The steps of a call by name from the host enter the code of the method. -/
theorem steps_sendCaught {code : Script}
    (entered : (s.readied name).act
      (Act.enterMethod receiver (s.machine.symbols.intern name).1 args .nil) =
        some (.ok code, inside)) (next : Except Raised Value → Script) (rest : List Pending) :
    Steps ⟨.sendCaught receiver name args next, rest, s⟩
      ⟨code, .call s.machine.depth .ofResult :: .shield s.machine.depth next :: rest, inside⟩ := by
  have guarded : step ⟨.sendCaught receiver name args next, rest, s⟩ =
      some ⟨.send receiver name args .nil .ofResult,
        .shield s.machine.depth next :: rest, s.onMachine Stage.shield⟩ := rfl
  have calls : step ⟨.call receiver (s.machine.symbols.intern name).1 args .nil .ofResult,
      .shield s.machine.depth next :: rest, s.readied name⟩ =
        some ⟨code, .call s.machine.depth .ofResult ::
          .shield s.machine.depth next :: rest, inside⟩ := by
    simp only [step, entering, entered]
    rfl
  have sending := (leads_send s receiver name args).steps (.shield s.machine.depth next :: rest)
  exact .head guarded (sending.tail calls)

/-- A run of the call is a run of the code of the method, and the end of the call and of its
protected region. -/
theorem run_sendCaught {code : Script}
    (entered : (s.readied name).act
      (Act.enterMethod receiver (s.machine.symbols.intern name).1 args .nil) =
        some (.ok code, inside)) (next : Except Raised Value → Script) (fuel : Nat) :
    Stage.run (fuel + 2) (.sendCaught receiver name args next) s =
      (Stage.run (fuel + 1) code inside).bind fun (o, after) =>
        (after.surface o).bind fun (r, last) =>
          Stage.run (fuel + 2) (next r) (last.onMachine fun m =>
            Stage.unshield s.machine.depth r (m.unwound s.machine.depth)) := by
  have surfaced : ∀ r t, Stage.surface t (.ofExcept r) = some (r, t) := by
    intro r t
    cases r <;> rfl
  have sent : Stage.runWith (Stage.run (fuel + 1)) (fuel + 2)
      (.send receiver name args .nil .ofResult) (s.onMachine Stage.shield) =
        (Stage.run (fuel + 1) code inside).bind fun (o, after) =>
          (after.surface o).bind fun (r, last) =>
            some (.ofExcept r, last.onMachine (·.unwound s.machine.depth)) :=
    ((leads_send s receiver name args).runs _ _).trans (Stage.runWith_call entered)
  apply Stage.runWith_protect.trans
  rw [sent]
  simp only [Option.bind_assoc, Option.bind_some, surfaced]
  rfl

/-- A run of code that asks for a callable is a run of the callable, and the end of the bridged
call. -/
theorem run_of_hostCall {code : Script} {index mark : Nat} {given : Value} {c : Callable}
    {entry : Stage}
    (asks : LeadsTo code inside (.hostCall form index receiver n given (gatewayEnd mark)) entry)
    (admitted : entry.ask (Act.resolveCall (entry.bridge.tables.lookup index n) form n given) =
      some (.ok c, entry)) (fuel : Nat) :
    Stage.run (fuel + 1) code inside =
      (Stage.run fuel (c.body ⟨index, receiver, n⟩ given) entry).bind fun (o, after) =>
        (after.handOn c.discipline o).bind fun (v, last) =>
          Stage.run 0 (gatewayEnd mark v) last := by
  refine (asks.runs _ _).trans ((Stage.runWith_hostCall admitted).trans ?_)
  simp only [Stage.runWith_gatewayEnd]

/-- The proc asks for its callable and is given it. -/
theorem leads_inCall (tidy : s.machine.heap.Tidy)
    (bridged : s.machine.Bridged method.proc e slot.form n) (small : n < twoTo 63)
    (found : s.bridge.tables.lookup s.ownIndex n = some slot) (admits : slot.Admits args.length)
    (called : inside = s.inCall receiver name args method.proc) :
    LeadsTo (gateway slot.form receiver) inside
        (.hostCall slot.form s.ownIndex receiver n (inside.handed slot.form)
          (gatewayEnd inside.machine.heap.arenaSave)) (inside.handing slot.form) ∧
      (inside.handing slot.form).ask
          (Act.resolveCall ((inside.handing slot.form).bridge.tables.lookup s.ownIndex n) slot.form
            n (inside.handed slot.form)) =
        some (.ok slot.callable, inside.handing slot.form) := by
  subst called
  have within : (s.inCall receiver name args method.proc).machine.Bridged method.proc e slot.form
      n := ⟨bridged.proc, bridged.env⟩
  have still : ((s.inCall receiver name args method.proc).handing slot.form).bridge = s.bridge :=
    Stage.handing_bridge _ _
  refine ⟨leads_gateway rfl within small receiver, ?_⟩
  rw [still, found]
  apply Stage.ask_of_run
  exact Act.run_resolveCall tidy admits

structure Dispatches (s : Stage) (receiver : Value) (name : String) (args : List Value)
    (c : Callable) (context : CallContext) (given : Value) (mark : Nat) (entry : Stage) : Prop where
  /-- Steps lead into the callable, whatever waits for the call. -/
  enters : ∀ next rest,
    Steps ⟨.sendCaught receiver name args next, rest, s⟩
      ⟨c.body context given, .host c.discipline (gatewayEnd mark) ::
        .call s.machine.depth .ofResult :: .shield s.machine.depth next :: rest, entry⟩
  /-- To run the call is to run the callable once, and then what enters no code at all. -/
  once : ∀ next fuel,
    Stage.run (fuel + 2) (.sendCaught receiver name args next) s =
      (Stage.run fuel (c.body context given) entry).bind fun (o, after) =>
        (after.returned s.machine.depth mark c.discipline o).bind fun (r, last) =>
          Stage.run (fuel + 2) (next r) last
  sees : entry.machine.args = args
  gives : c.form.Gives args given entry.machine

/-- A call that finds a bridged proc and passes all checks runs the callable. -/
theorem dispatches (tidy : s.machine.heap.Tidy)
    (enters : s.machine.Enters receiver (s.machine.symbols.intern name).1 args method)
    (bridged : s.machine.Bridged method.proc e slot.form n) (small : n < twoTo 63)
    (found : s.bridge.tables.lookup s.ownIndex n = some slot) (admits : slot.Admits args.length)
    (called : inside = s.inCall receiver name args method.proc) :
    Dispatches s receiver name args slot.callable ⟨s.ownIndex, receiver, n⟩
      (inside.handed slot.form) inside.machine.heap.arenaSave (inside.handing slot.form) := by
  obtain ⟨asks, admitted⟩ := leads_inCall tidy bridged small found admits called
  have entered := act_enterMethod enters bridged
  rw [← called] at entered
  have args_eq : inside.machine.args = args := by
    rw [called]
    rfl
  constructor
  · intro next rest
    have asking := asks.steps (.call s.machine.depth .ofResult ::
      .shield s.machine.depth next :: rest)
    apply ((steps_sendCaught entered next rest).trans asking).tail
    simp only [step, admitted]
    rfl
  · intro next fuel
    rw [run_sendCaught entered, run_of_hostCall asks admitted]
    simp only [Stage.returned, Option.bind_assoc, Option.map_eq_bind, Option.bind_some,
      Function.comp_def]
  · rw [Stage.handing_args, args_eq]
  · have still : inside.machine.heap.Tidy := by
      rw [called]
      exact tidy
    have given := Stage.gives_handed still slot.form
    rwa [args_eq] at given

end Scene

end GuestVM
