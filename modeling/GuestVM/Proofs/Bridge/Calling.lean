import GuestVM.Proofs.Bridge.Dispatching
import GuestVM.Proofs.Bridge.Reraising
import GuestVM.Proofs.Machine.Owning
import GuestVM.Proofs.Scene.Sheltered
import GuestVM.Proofs.Scene.Visiting

/-! # The course of a bridged call

A bridged call prepares, runs its callable and concludes.  On the way to the callable nothing happens
but that the arguments are put into an array; while the callable runs, what was on the arena when it
began stays in its place, if the arena is cut back only to marks that the callable has taken; in the
end the arena is what it was before the call, with what the callable gave back on top.  `Course` says
how far a call has come and what is known of the arena there, and a step of the machine goes on in the
course (`Course.step`).

What the frame of the call names is a root all the while, so a collection spares it
(`Attended.spares`). -/
set_option autoImplicit false

namespace GuestVM

/-- What a callable itself gives back; nothing where an exception is raised anew for it. -/
def Discipline.gives : Discipline → Outcome → Option Value
  | _, .value v => some v
  | .direct, .raised e => some e.value
  | .fallible, .raised _ => none
  | _, .failed _ => none

/-- What a call ends with: its value or its exception. -/
def Outcome.carried : Except Raised Value → Value
  | .ok v => v
  | .error e => e.value

namespace Machine

variable {m : Machine} {v : Value}

theorem Hands.isLive (hands : m.Hands v) : m.IsLive v := by
  obtain ⟨e, tells, rfl⟩ := hands
  obtain ⟨id, same, -⟩ := tells.isObj
  intro x is
  rw [same] at is
  cases is
  exact (tells.hasException same).live

theorem IsLive.of_slots {m' : Machine} (live : m.IsLive v)
    (slots : m'.heap.slots = m.heap.slots) : m'.IsLive v := by
  intro id is
  have same : m'.object? id = m.object? id := by
    simp only [object?, Heap.get?, Heap.cell?, slots]
  rw [Live, same]
  exact live id is

end Machine

/-- The array of the arguments is on the arena when the callable begins. -/
theorem Stage.mem_arena_handing {form : Form} {id : ObjId} (s : Stage)
    (handed : (s.handed form).asObj = some id) :
    id ∈ (s.handing form).machine.heap.arena.toList := by
  cases form with
  | bound => cases handed
  | free =>
      cases handed
      change s.machine.newId s.argumentArray ∈ (s.machine.heap.alloc s.argumentArray).2.arena.toList
      rw [Heap.alloc_arena, Array.toList_push]
      exact List.mem_append_right _ (List.mem_singleton_self _)

/-- What a callable's end hands on is immediate or alive, if that is so of what it gives back
itself. -/
theorem Stage.handOn_isLive {s s' : Stage} {d : Discipline} {o : Outcome} {v : Value}
    (tidy : s.machine.heap.Tidy) (handed : s.handOn d o = some (v, s'))
    (gives : ∀ w, d.gives o = some w → s.machine.IsLive w) : s'.machine.IsLive v := by
  obtain ⟨-, anew, -⟩ := handOn_calm tidy handed
  cases o with
  | value w =>
      cases handed
      exact gives _ rfl
  | raised e =>
      cases d with
      | direct =>
          cases handed
          exact gives _ rfl
      | fallible => exact (anew trivial).isLive
  | failed e =>
      refine (anew ?_).isLive
      cases d <;> trivial

/-- What the bridge answers with an action of the machine, the machine has answered. -/
theorem Stage.run_of_askBridge {α : Type} {s s' : Stage} {a : Act α} {x : α}
    (asked : s.askBridge (liftM a : Bridge.Deed α) = some (x, s')) :
    a.run.run s.machine = (.ok x, s'.machine) := by
  rcases ran : a.run.run s.machine with ⟨e | y, m⟩
  · have lifted : ((liftM a : Bridge.Deed α).run s.bridge).run.run s.machine = (.error e, m) := by
      change (a >>= fun x => pure (x, s.bridge)).run.run s.machine = _
      rw [Act.run_bind, ran]
    cases e <;> simp only [askBridge, ask, act, lifted, reduceCtorEq] at asked
  · cases (askBridge_of_run ran).symm.trans asked
    rfl

theorem Act.run_attempt_raiseIfLive {m m' : Machine} {v : Value} {r : Except Raised Value}
    (ran : (attempt (raiseIfLive v)).run.run m = (.ok r, m')) :
    Outcome.carried r = v ∧ m' = m := by
  rw [run_attempt] at ran
  by_cases live : m.typeOf v = .exception ∧ m.currentException = some v
  · obtain ⟨typed, current⟩ := live
    have filled : m.exc = v.asObj := by
      obtain ⟨id, filled, rfl⟩ := Option.map_eq_some_iff.mp current
      exact filled
    rw [run_raiseIfLive_live typed current, run_exceptionRaise_current typed filled] at ran
    cases named : m.realClassName v with
    | none =>
        rw [named] at ran
        cases ran
    | some name =>
        rw [named] at ran
        cases ran
        exact ⟨rfl, rfl⟩
  · rw [run_raiseIfLive_of_other live] at ran
    cases ran
    exact ⟨rfl, rfl⟩

namespace Scene

variable {a b : Scene}

/-! ## To the callable -/

/-- Code that comes to `target` in the machine `last` with nothing but requests that the machine can
answer, and without a collection; which index the bridge gives on the way makes no difference. -/
inductive Prepares (target : Nat → Script) (last : Machine) : Script → Machine → Prop
  | asks (index : Nat) : Prepares target last (target index) last
  | guest {ans : Answer} {r : GuestRequest ans} {next : ans.Carrier → Script} {x : ans.Carrier}
      {m m' : Machine} (quiet : r.grant.sweeps = false)
      (ran : (Act.answer r).run.run m = (.ok x, m')) (onward : Prepares target last (next x) m') :
      Prepares target last (.guest r next) m
  | index {next : Nat → Script} {m : Machine} (onward : ∀ k, Prepares target last (next k) m) :
      Prepares target last (.bridge .currentIndex next) m

theorem Prepares.step {target : Nat → Script} {last : Machine}
    (prepares : Prepares target last a.script a.stage.machine) (stepped : a.step = some b) :
    (Prepares target last b.script b.stage.machine ∧ b.pending = a.pending) ∨
      ∃ index, a.script = target index ∧ a.stage.machine = last := by
  obtain ⟨script, pending, s⟩ := a
  dsimp only at prepares
  generalize here : s.machine = m at prepares
  cases prepares with
  | asks index => exact .inr ⟨index, rfl, rfl⟩
  | guest quiet ran onward =>
      subst here
      rw [step_guest_of_run ran] at stepped
      cases stepped
      exact .inl ⟨onward, rfl⟩
  | index onward =>
      subst here
      cases stepped
      exact .inl ⟨onward _, rfl⟩

/-- The code asks for its target, or makes a request that collects nothing. -/
theorem Prepares.asking {target : Nat → Script} {last m : Machine} {script : Script}
    (prepares : Prepares target last script m) :
    (∃ index, script = target index) ∨ (∃ next, script = .bridge .currentIndex next) ∨
      ∃ (ans : Answer) (r : GuestRequest ans) (next : ans.Carrier → Script),
        script = .guest r next ∧ r.grant.sweeps = false := by
  cases prepares with
  | asks index => exact .inl ⟨index, rfl⟩
  | guest quiet => exact .inr (.inr ⟨_, _, _, rfl, quiet⟩)
  | index => exact .inr (.inl ⟨_, rfl⟩)

variable {s : Stage}

/-- What a bridged call asks for. -/
def callableRequest (form : Form) (receiver : Value) (function : Nat) (s : Stage) (index : Nat) :
    Script :=
  .hostCall form index receiver function (s.handed form) (gatewayEnd s.machine.heap.arenaSave)

theorem prepares_gatewayRun (form : Form) (receiver : Value) (function : Nat) :
    Prepares (callableRequest form receiver function s) (s.handing form).machine
      (gatewayRun form receiver function) s.machine := by
  refine .index fun index => .guest rfl rfl ?_
  cases form with
  | bound => exact .asks index
  | free => exact .guest rfl rfl (.guest rfl rfl (.asks index))

theorem prepares_gateway {frame : Frame} {number : Int64}
    (running : s.machine.frames.head? = some frame)
    (numbered : s.machine.Numbered frame.proc number) (proper : 0 ≤ number) (form : Form)
    (receiver : Value) :
    Prepares (callableRequest form receiver number.toInt.toNat s) (s.handing form).machine
      (gateway form receiver) s.machine := by
  have attempted : (Act.attempt (Act.ownEnvGet 0)).run.run s.machine =
      (.ok (.ok (.int number)), s.machine) := by
    rw [Act.run_attempt, Act.run_ownEnvGet running numbered]
  refine .guest rfl attempted ?_
  have passes : (Value.int number).asInt.filter (0 ≤ ·) = some number := by
    simp [Value.asInt, proper]
  dsimp only
  rw [passes]
  exact prepares_gatewayRun form receiver number.toInt.toNat

/-! ## After the callable -/

/-- The end of a bridged call that had `arena` when it began and whose callable has given `v` back. -/
inductive Concludes (arena : List ObjId) (v : Value) : Script → Machine → Prop
  | cuts {m : Machine} (below : arena <+: m.heap.arena.toList) :
      Concludes arena v (gatewayEnd arena.length v) m
  | keeps {m : Machine} (id : ObjId) (object : v.asObj = some id)
      (cut : m.heap.arena.toList = arena) :
      Concludes arena v
        (.guest (.arenaPush id) fun _ => .bridge (.raiseIfLive v) Script.ofResult) m
  | raises {m : Machine} (kept : m.heap.arena.toList = arena ++ v.asObj.toList) :
      Concludes arena v (.bridge (.raiseIfLive v) Script.ofResult) m
  | ends {m : Machine} (r : Except Raised Value) (carries : Outcome.carried r = v)
      (kept : m.heap.arena.toList = arena ++ v.asObj.toList) :
      Concludes arena v (Script.ofResult r) m

namespace Concludes

variable {arena : List ObjId} {v : Value}

theorem step (concludes : Concludes arena v a.script a.stage.machine)
    (live : a.stage.machine.IsLive v) (stepped : a.step = some b) :
    (Concludes arena v b.script b.stage.machine ∧ b.stage.machine.IsLive v ∧
        b.pending = a.pending) ∨
      ∃ r, a.script = Script.ofResult r ∧ Outcome.carried r = v ∧
        a.stage.machine.heap.arena.toList = arena ++ v.asObj.toList := by
  obtain ⟨script, pending, s⟩ := a
  dsimp only at concludes live
  generalize here : s.machine = m at concludes live
  cases concludes with
  | cuts below =>
      subst here
      have cut : (s.machine.heap.arenaRestore arena.length).arena.toList = arena := by
        obtain ⟨tail, whole⟩ := below
        simp [Heap.arenaRestore, ← whole]
      let back : Machine := { s.machine with heap := s.machine.heap.arenaRestore arena.length }
      have still : back.IsLive v := live.of_slots rfl
      cases object : v.asObj with
      | none =>
          simp only [gatewayEnd, object] at stepped
          cases stepped
          refine .inl ⟨.raises ?_, still, rfl⟩
          rw [object, Option.toList_none, List.append_nil]
          exact cut
      | some id =>
          simp only [gatewayEnd, object] at stepped
          cases stepped
          exact .inl ⟨.keeps id object cut, still, rfl⟩
  | keeps id object cut =>
      subst here
      cases stepped
      refine .inl ⟨.raises ?_, live.of_slots rfl, rfl⟩
      rw [object, Option.toList_some, ← cut]
      exact Array.toList_push
  | raises kept =>
      subst here
      obtain ⟨⟨r, after⟩, asked, rfl⟩ := Option.map_eq_some_iff.mp stepped
      obtain ⟨carries, same⟩ := Act.run_attempt_raiseIfLive (Stage.run_of_askBridge asked)
      refine .inl ⟨.ends r carries ?_, ?_, rfl⟩
      · rw [same]
        exact kept
      · rw [same]
        exact live
  | ends r carries kept => exact .inr ⟨r, rfl, carries, here ▸ kept⟩

/-- The end of the call neither collects nor runs a callable. -/
theorem plain {m : Machine} {script : Script} (concludes : Concludes arena v script m) :
    (∀ next, script ≠ .guest .collect next) ∧
      ∀ form index receiver function args next,
        script ≠ .hostCall form index receiver function args next := by
  cases concludes <;> exact ⟨nofun, nofun⟩

end Concludes

/-! ## While the callable runs -/

/-- A callable for which `waits` waits is running, or code that it began. -/
def InCallable (waits : List Pending) (a : Scene) : Prop :=
  ∃ d next, .host d next :: waits <:+ a.pending

/-- The callable cuts the arena back only to one of the marks, and what it gives back is immediate or
alive. -/
structure Respects (waits : List Pending) (marks : List Nat) (a : Scene) : Prop where
  cuts : ∀ mark next, a.InCallable waits → a.script = .guest (.arenaRestore mark) next →
    mark ∈ marks
  gives : ∀ d next o v, a.script = .done o → a.pending = .host d next :: waits →
    d.gives o = some v → a.stage.machine.IsLive v

end Scene

/-! ## The call -/

/-- A bridged call that has just begun: its proc runs in the first frame and finds the number of its
callable in its environment. -/
structure BridgedCall where
  form : Form
  frame : Frame
  number : Int64
  depth : Nat
  next : Except Raised Value → Script
  outer : List Pending
  stage : Stage
  running : stage.machine.frames.head? = some frame
  numbered : stage.machine.Numbered frame.proc number
  proper : 0 ≤ number

namespace BridgedCall

/-- What waits for the call to end. -/
def waits (call : BridgedCall) : List Pending := .call call.depth call.next :: call.outer

def begins (call : BridgedCall) : Scene :=
  ⟨gateway call.form call.frame.receiver, call.waits, call.stage⟩

def arena (call : BridgedCall) : List ObjId := call.stage.machine.heap.arena.toList

/-- The machine when the callable begins. -/
def entry (call : BridgedCall) : Machine := (call.stage.handing call.form).machine

def request (call : BridgedCall) : Nat → Script :=
  Scene.callableRequest call.form call.frame.receiver call.number.toInt.toNat call.stage

/-- How far the call has come, and what is known of the arena there.  `marks` are marks of the arena
that its callable has taken. -/
inductive Course (call : BridgedCall) (marks : List Nat) (b : Scene) : Prop
  | preparing (prepares : Scene.Prepares call.request call.entry b.script b.stage.machine)
      (pending : b.pending = call.waits) (none : marks = [])
  | running (d : Discipline)
      (inside : .host d (gatewayEnd call.arena.length) :: call.waits <:+ b.pending)
      (kept : call.entry.heap.arena.toList <+: b.stage.machine.heap.arena.toList)
      (above : ∀ mark ∈ marks, call.entry.heap.arena.size ≤ mark)
  | concluding (v : Value) (concludes : Scene.Concludes call.arena v b.script b.stage.machine)
      (live : b.stage.machine.IsLive v) (pending : b.pending = call.waits)
  | returned (r : Except Raised Value) (script : b.script = call.next r)
      (pending : b.pending = call.outer)
      (kept : b.stage.machine.heap.arena.toList =
        call.arena ++ (Outcome.carried r).asObj.toList)
      (live : b.stage.machine.IsLive (Outcome.carried r))

variable {call : BridgedCall} {marks : List Nat} {a b : Scene}

theorem below_entry (call : BridgedCall) : call.arena <+: call.entry.heap.arena.toList := by
  unfold entry
  cases call.form with
  | bound => exact List.prefix_rfl
  | free => exact (Machine.Steady.withNew _).arena

namespace Course

theorem begins (call : BridgedCall) : call.Course [] call.begins :=
  .preparing (Scene.prepares_gateway call.running call.numbered call.proper call.form _) rfl rfl

/-- The callable that a call asks for runs, or the call ends with the exception it is given instead. -/
theorem asked {index : Nat} (script : a.script = call.request index)
    (pending : a.pending = call.waits) (here : a.stage.machine = call.entry)
    (tidy : a.stage.machine.heap.Tidy) (stepped : a.step = some b) : call.Course [] b := by
  obtain ⟨code, waiting, s⟩ := a
  cases script
  cases pending
  obtain ⟨⟨answer, after⟩, asked, same⟩ := Option.map_eq_some_iff.mp stepped
  obtain ⟨steady, refused⟩ := Stage.ask_calm tidy (Act.calm_resolveCall _ _ _ _) asked
  have kept := steady.arena
  rw [here] at kept
  cases answer with
  | error v =>
      cases same
      exact .concluding v (.cuts (call.below_entry.trans kept)) (Machine.Hands.isLive refused) rfl
  | ok c =>
      cases same
      exact .running c.discipline List.suffix_rfl kept (List.forall_mem_nil _)

/-- A step goes on in the course of a call that has not returned. -/
theorem step (course : call.Course marks a) (respects : a.Respects call.waits marks)
    (inside : call.waits <:+ a.pending) (tidy : a.stage.machine.heap.Tidy)
    (stepped : a.step = some b) : call.Course marks b := by
  cases course with
  | preparing prepares pending none =>
      rcases prepares.step stepped with ⟨onward, same⟩ | ⟨index, script, here⟩
      · exact .preparing onward (same.trans pending) none
      · exact none ▸ asked script pending here tidy stepped
  | running d within kept above =>
      rcases Scene.step_leaves stepped tidy within with still | ⟨o, script, pending⟩
      · refine .running d still (Heap.prefix_of_placed fun place id placed => ?_) above
        refine Scene.step_placed stepped tidy ?_ (Heap.placed_of_prefix kept placed)
        rintro ⟨mark, next, script, low⟩
        have high := above mark (respects.cuts mark next ⟨d, _, within⟩ script)
        obtain ⟨place_lt, -⟩ := Array.getElem?_eq_some_iff.mp placed
        omega
      · obtain ⟨code, waiting, s⟩ := a
        cases script
        cases pending
        obtain ⟨⟨v, after⟩, handed, rfl⟩ := Option.map_eq_some_iff.mp stepped
        have steady := (Stage.handOn_calm tidy handed).1
        exact .concluding v (.cuts ((call.below_entry.trans kept).trans steady.arena))
          (Stage.handOn_isLive tidy handed fun w => respects.gives d _ o w rfl rfl) rfl
  | concluding v concludes live pending =>
      rcases concludes.step live stepped with ⟨onward, live, same⟩ | ⟨r, script, rfl, kept⟩
      · exact .concluding v onward live (same.trans pending)
      · obtain ⟨code, waiting, s⟩ := a
        cases script
        cases pending
        cases r with
        | ok v =>
            cases stepped
            exact .returned (.ok v) rfl rfl kept (live.of_slots rfl)
        | error e =>
            cases stepped
            exact .returned (.error e) rfl rfl kept (live.of_slots rfl)
  | returned r script pending => exact (Pending.not_cons_suffix (pending ▸ inside)).elim

/-- A mark that the callable takes is above what was on the arena when it began. -/
theorem mark (course : call.Course marks a) (within : a.InCallable call.waits) :
    call.Course (a.stage.machine.heap.arenaSave :: marks) a := by
  obtain ⟨d, next, within⟩ := within
  cases course with
  | preparing prepares pending => exact (Pending.not_cons_suffix (pending ▸ within)).elim
  | running d within kept above =>
      refine .running d within kept fun mark member => ?_
      rcases List.mem_cons.mp member with rfl | old
      · exact kept.length_le
      · exact above mark old
  | concluding v concludes live pending =>
      exact (Pending.not_cons_suffix (pending ▸ within)).elim
  | returned r script pending =>
      have outside : call.waits <:+ call.outer := pending ▸ (List.suffix_cons _ _).trans within
      exact (Pending.not_cons_suffix outside).elim

/-- The callable that the call asks for is that of its number, and gets its receiver and its array. -/
theorem hands (course : call.Course marks a) (pending : a.pending = call.waits) {form : Form}
    {index function : Nat} {receiver args : Value} {next : Value → Script}
    (script : a.script = .hostCall form index receiver function args next) :
    form = call.form ∧ function = call.number.toInt.toNat ∧ receiver = call.frame.receiver ∧
      args = call.stage.handed call.form := by
  cases course with
  | preparing prepares =>
      rcases prepares.asking with ⟨index, same⟩ | ⟨next, same⟩ | ⟨ans, r, next, same, -⟩
      · cases script.symm.trans same
        exact ⟨rfl, rfl, rfl, rfl⟩
      · cases script.symm.trans same
      · cases script.symm.trans same
  | running d within => exact (Pending.not_cons_suffix (pending ▸ within)).elim
  | concluding v concludes => exact (concludes.plain.2 _ _ _ _ _ _ script).elim
  | returned r _ outside =>
      have whole := congrArg List.length (pending.symm.trans outside)
      simp [waits] at whole

/-- How far a call has come does not depend on what else goes on. -/
theorem congr (course : call.Course marks a) (script : b.script = a.script)
    (pending : b.pending = a.pending) (machine : b.stage.machine = a.stage.machine) :
    call.Course marks b := by
  cases course with
  | preparing prepares waiting none =>
      exact .preparing (by rwa [script, machine]) (pending.trans waiting) none
  | running d within kept above =>
      exact .running d (pending ▸ within) (machine ▸ kept) above
  | concluding v concludes live waiting =>
      exact .concluding v (by rwa [script, machine]) (machine ▸ live) (pending.trans waiting)
  | returned r ended waiting kept live =>
      exact .returned r (script.trans ended) (pending.trans waiting) (machine ▸ kept)
        (machine ▸ live)

end Course

/-! ## What the call keeps alive -/

/-- What must not be freed while the call runs: what its frame names, the environment of its proc and
the array of its arguments. -/
def Needs (call : BridgedCall) (m : Machine) (id : ObjId) : Prop :=
  id ∈ call.frame.references ∨ m.procEnv call.frame.proc = some id ∨
    (call.stage.handed call.form).asObj = some id

/-- The frame of the call is there, and what it names is alive if it was when the call began. -/
structure Attended (call : BridgedCall) (a : Scene) : Prop where
  above : a.Above call.stage.machine call.waits
  alive : ∀ id ∈ call.frame.references, call.stage.machine.Live id → a.stage.machine.Live id

namespace Attended

variable {id : ObjId}

theorem root (attended : call.Attended a) (named : id ∈ call.frame.references) :
    id ∈ a.stage.machine.roots := by
  have first : call.frame ∈ call.stage.machine.frames := List.mem_of_mem_head? call.running
  have framed := attended.above.frames_suffix.subset first
  exact List.mem_append_right _ (List.mem_flatMap.mpr ⟨call.frame, framed, named⟩)

theorem step (attended : call.Attended a) (tidy : a.stage.machine.heap.Tidy)
    (stepped : a.step = some b) (inside : call.waits <:+ b.pending) : call.Attended b := by
  refine ⟨Scene.above_step attended.above stepped tidy inside, fun id named was => ?_⟩
  have live := attended.alive id named was
  cases sweeps : a.grant.sweeps with
  | false => exact (Scene.step_evolution stepped tidy).1.live tidy sweeps live
  | true =>
      obtain ⟨next, script⟩ := Scene.script_of_sweeps sweeps
      rw [Scene.machine_of_collect script stepped]
      obtain ⟨o, present⟩ := live.object?
      exact .of_object? (Heap.get?_collect_of_root present (.inl (attended.root named)))

/-- A collection leaves what the call needs as it is. -/
theorem spares (attended : call.Attended a) (course : call.Course marks a)
    (inside : call.waits <:+ a.pending) (tidy : a.stage.machine.heap.Tidy) {next : Nat → Script}
    (script : a.script = .guest .collect next) (stepped : a.step = some b)
    (needed : call.Needs a.stage.machine id) :
    b.stage.machine.object? id = a.stage.machine.object? id := by
  rw [Scene.machine_of_collect script stepped]
  cases present : a.stage.machine.object? id with
  | none =>
      cases after : (a.stage.machine.heap.collect a.stage.machine.roots).2.get? id with
      | none => exact after
      | some o => cases present.symm.trans (Heap.get?_of_get?_collect after)
  | some o =>
      rcases needed with named | owned | array
      · exact Heap.get?_collect_of_root present (.inl (attended.root named))
      · obtain ⟨proc, data, there, isProc, env⟩ := Machine.procEnv_eq_some.mp owned
        have kept := Heap.get?_collect_of_root there
          (.inl (attended.root (List.mem_cons_self ..)))
        refine Heap.get?_collect_of_reference tidy kept ?_ present
        apply Object.mem_references_of_body
        simp [isProc, Body.references, env]
      · refine Heap.get?_collect_of_root present (.inr ?_)
        cases course with
        | preparing prepares =>
            rcases prepares.asking with ⟨index, same⟩ | ⟨next, same⟩ | ⟨ans, r, next, same, quiet⟩
            · cases script.symm.trans same
            · cases script.symm.trans same
            · cases script.symm.trans same
              cases quiet
        | concluding v concludes => exact (concludes.plain.1 next script).elim
        | returned r _ pending => exact (Pending.not_cons_suffix (pending ▸ inside)).elim
        | running d within kept above =>
            exact kept.subset (call.stage.mem_arena_handing array)

end Attended

end BridgedCall

end GuestVM
