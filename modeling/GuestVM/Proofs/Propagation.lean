import GuestVM.Proofs.Balance
import GuestVM.Proofs.Bridge.Dispatching
import GuestVM.Proofs.Bridge.Reraising
import GuestVM.Proofs.LiveException
import GuestVM.Proofs.Scene.Sheltered

/-! # Exceptions on their way up

Native and lexical code passes an exception on as what it was raised as.  A bridged callable passes
it on by returning the exception object: its bridged method raises it again, since it is the current
exception, and looks its class name and message up anew.  Through any mixture of the two it arrives
as it was raised.

A protected region that it arrives at ends the raise: the slot is empty, the calls are those of the
beginning, and the arena keeps the exception. -/
set_option autoImplicit false

namespace GuestVM

/-! ## Chains of calls -/

/-- A call that waits for code which passes exceptions on; `next` is what the caller does. -/
inductive Level where
  /-- A call of native or lexical code. -/
  | plain (depth : Nat) (next : Except Raised Value → Script)
  /-- A call of a bridged method, whose callable runs. -/
  | bridged (discipline : Discipline) (mark depth : Nat) (next : Except Raised Value → Script)

namespace Level

def waiting : Level → List Pending
  | .plain depth next => [.call depth next]
  | .bridged discipline mark depth next =>
    [.host discipline (gatewayEnd mark), .call depth next]

def next : Level → Except Raised Value → Script
  | .plain _ next => next
  | .bridged _ _ _ next => next

/-- What is left of the code of a level passes `e` on: native and lexical code lets it go up, a
callable returns its object.  A bridged method whose callable was not admitted does so with the
exception for that. -/
def PassesOn (e : Raised) : Level → Script → Prop
  | .plain _ _, code => code = .done (.raised e) ∨ ∃ mark, code = gatewayEnd mark e.value
  | .bridged discipline _ _ _, code =>
    code = .done (.value e.value) ∨ (code = .done (.raised e) ∧ discipline = .direct)

end Level

/-- A number of nested calls, innermost first: `code` is left of the innermost one, each caller is
told that the call it waits for has raised `e` and passes `e` on, and `next` is what the outermost
caller does. -/
inductive Chain (e : Raised) :
    Nat → Script → List Pending → (Except Raised Value → Script) → Prop
  | single {code : Script} (level : Level) (passes : level.PassesOn e code) :
      Chain e 1 code level.waiting level.next
  | under {n : Nat} {code : Script} {waiting : List Pending} {next : Except Raised Value → Script}
      (level : Level) (passes : level.PassesOn e code)
      (outer : Chain e n (level.next (.error e)) waiting next) :
      Chain e (n + 1) code (level.waiting ++ waiting) next

/-! ## Crossing them -/

section Crossing

variable {e : Raised} {s : Stage} {code : Script} {next : Except Raised Value → Script}
  {waiting : List Pending} {n : Nat}

theorem Scene.steps_raised (depth : Nat) (next : Except Raised Value → Script)
    (rest : List Pending) (e : Raised) (s : Stage) :
    StepsOver rest ⟨.done (.raised e), .call depth next :: rest, s⟩
      ⟨next (.error e), rest, s.onMachine (·.unwound depth)⟩ :=
  .single ⟨rfl, List.suffix_rfl⟩

/-- From the end of a callable, or of a refused call, to the caller. -/
theorem Scene.steps_reraised (tells : s.machine.Tells e) (mark depth : Nat)
    (next : Except Raised Value → Script) (rest : List Pending) :
    ∃ s', StepsOver rest ⟨gatewayEnd mark e.value, .call depth next :: rest, s⟩
        ⟨next (.error e), rest, s'⟩ ∧ s'.machine.Tells e := by
  obtain ⟨id, same, -⟩ := tells.isObj
  have again := steps_gatewayEnd_again tells same mark (.call depth next :: rest)
  refine ⟨_, (again.weaken (List.suffix_cons _ _)).trans (steps_raised depth next rest e _), ?_⟩
  exact tells.congr rfl rfl rfl

theorem Level.crosses (level : Level) (passes : level.PassesOn e code) (tells : s.machine.Tells e)
    (rest : List Pending) :
    ∃ s', Scene.StepsOver rest ⟨code, level.waiting ++ rest, s⟩ ⟨level.next (.error e), rest, s'⟩ ∧
      s'.machine.Tells e := by
  cases level with
  | plain depth next =>
      obtain rfl | ⟨mark, rfl⟩ := passes
      · exact ⟨_, Scene.steps_raised depth next rest e s, tells.congr rfl rfl rfl⟩
      · exact Scene.steps_reraised tells mark depth next rest
  | bridged discipline mark depth next =>
      obtain ⟨s', steps, tells'⟩ := Scene.steps_reraised tells mark depth next rest
      refine ⟨s', .head ⟨?_, List.suffix_cons _ _⟩ steps, tells'⟩
      obtain rfl | ⟨rfl, rfl⟩ := passes <;> rfl

theorem Chain.crosses (chain : Chain e n code waiting next) (tells : s.machine.Tells e)
    (rest : List Pending) :
    ∃ s', Scene.StepsOver rest ⟨code, waiting ++ rest, s⟩ ⟨next (.error e), rest, s'⟩ ∧
      s'.machine.Tells e := by
  induction chain generalizing s with
  | single level passes => exact level.crosses passes tells rest
  | @under n code waiting next level passes outer ih =>
      obtain ⟨middle, inner, told⟩ := level.crosses passes tells (waiting ++ rest)
      obtain ⟨s', onward, arrived⟩ := ih told
      rw [List.append_assoc]
      exact ⟨s', (inner.weaken (List.suffix_append _ _)).trans onward, arrived⟩

/-- A protected region that ends with an exception. -/
theorem Scene.step_caught (depth : Nat) (after : Except Raised Value → Script)
    (outer : List Pending) (e : Raised) (s : Stage) :
    Scene.step ⟨.done (.raised e), .shield depth after :: outer, s⟩ =
      some ⟨after (.error e), outer, s.onMachine (Stage.unshield depth (.error e))⟩ := rfl

end Crossing

theorem Machine.live_of_procData? {m : Machine} {proc : ObjId} {data : ProcData}
    (isProc : m.procData? proc = some data) : m.Live proc := by
  obtain ⟨o, present, -⟩ := Machine.procData?_eq_some.mp isProc
  exact .of_object? present

namespace Stage

variable {m : Machine} {e : Raised} {depth : Nat} {id : ObjId}

theorem exc_unshield : (unshield depth (.error e) m).exc = none := by
  cases object : e.value.asObj <;> simp [unshield, object]

/-- The exception is the last thing on the arena. -/
theorem shelters_unshield {place : Nat} (live : m.Live id) (same : e.value = .obj id)
    (last : place + 1 = (unshield depth (.error e) m).heap.arena.size) :
    (unshield depth (.error e) m).Shelters place id := by
  have pushed : (unshield depth (.error e) m).heap = m.heap.arenaPush id := by
    simp [unshield, same, Value.asObj, Machine.unwound]
  rw [pushed, Heap.arenaPush, Array.size_push] at last
  refine ⟨?_, ?_⟩
  · rw [pushed, Heap.arenaPush]
    have top : place = m.heap.arena.size := by omega
    rw [top]
    exact Array.getElem?_push_size
  · rw [Machine.Live, Machine.object?, pushed]
    exact live

end Stage

namespace Situation

attribute [local irreducible] Machine.opened

variable {now : Situation} {name : String} {a : Scene} {e : Raised} {n : Nat} {code : Script}
  {waiting rest : List Pending} {next : Except Raised Value → Script}

/-- What holds after a protected region, for which `outer` waited, has caught `e`. -/
structure Caught (now : Situation) (name : String) (e : Raised)
    (after : Except Raised Value → Script) (outer : List Pending) (s : Stage) : Prop where
  cleared : s.machine.exc = none
  /-- The calls are those that ran when the region was entered. -/
  level : ∀ start body entry, Run Anything {} start →
    start.scene? name = some ⟨.protect body after, outer, entry⟩ →
    Run (fun s _ => Inside name outer s) start now →
    s.machine.frames = entry.machine.frames ∧ s.machine.depth = entry.machine.depth
  /-- From then on the exception is alive, until the arena is cut back to where it is kept. -/
  kept : ∀ place there later, place + 1 = s.machine.heap.arena.size → Run Anything {} there →
    there.scene? name = some ⟨after (.error e), outer, s⟩ →
    Run (Sheltering name place) there later →
    ∃ id, e.value = .obj id ∧ Sheltered name place id later

/-- How an exception that was raised at `a` arrives. -/
structure Arrives (now : Situation) (name : String) (a : Scene) (e : Raised)
    (next : Except Raised Value → Script) (rest : List Pending) : Prop where
  /-- The outermost call ends with the exception as it was raised, and it is the current one. -/
  raised : ∃ s, Scene.Steps a ⟨next (.error e), rest, s⟩ ∧ s.machine.Tells e
  /-- If all runs in a protected region, that is where it ends. -/
  caught : ∀ depth after outer, rest = .shield depth after :: outer →
    next (.error e) = .done (.raised e) →
    ∃ s, Scene.Steps a ⟨after (.error e), outer, s⟩ ∧ Caught now name e after outer s

theorem exception_arrives {s : Stage} (run : Run Anything {} now) (shown : now.scene? name = some a)
    (throws : a.Throws e s) (stepped : a.step = some ⟨code, waiting ++ rest, s⟩)
    (chain : Chain e n code waiting next) : Arrives now name a e next rest := by
  have tidy := tidy_of_shown run shown
  obtain ⟨arrived, crossed, tells⟩ := chain.crosses (throws.tells tidy) rest
  have steps : Scene.StepsOver rest a ⟨next (.error e), rest, arrived⟩ :=
    .head ⟨stepped, List.suffix_append _ _⟩ crossed
  refine ⟨⟨arrived, steps.steps, tells⟩, ?_⟩
  rintro depth after outer rfl propagates
  rw [propagates] at steps
  have inside : Scene.StepsOver outer a ⟨after (.error e), outer,
      arrived.onMachine (Stage.unshield depth (.error e))⟩ :=
    (steps.weaken (List.suffix_cons _ _)).tail ⟨Scene.step_caught .., List.suffix_rfl⟩
  refine ⟨_, inside.steps, Stage.exc_unshield, ?_, ?_⟩
  · intro start body entry begun opened within
    have still : Inside name outer now := by
      have waits := (throws.stage stepped).2
      refine ⟨a, shown, waits ▸ ?_⟩
      exact (List.suffix_cons _ _).trans (List.suffix_append _ _)
    obtain ⟨-, b, found, above⟩ := above_run begun opened (.refl _) within still
    cases shown.symm.trans found
    have same := (Scene.above_steps above inside tidy).1.sameCalls rfl
    exact ⟨same.frames, congrArg List.length same.frames⟩
  · intro place there later last reached showing onward
    obtain ⟨id, same, -⟩ := tells.isObj
    obtain ⟨j, found, machine', -⟩ := scene?_eq_some showing
    have shelters := Stage.shelters_unshield (tells.hasException same).live same last
    exact ⟨id, same, (sheltered_run reached ⟨j, found, machine' ▸ shelters⟩ onward).2⟩

/-! ## An exception that crosses a block and a bridged method -/

def fails : Script :=
  .guest (.raise Builtin.runtimeError.id "boom") fun e => .done (.raised e)

/-- Returns what a call has raised. -/
def returning : Except Raised Value → Script
  | .error e => Script.ret e.value
  | .ok v => Script.ret v

def relays (proc : ObjId) : Script := .callProc (.obj proc) .nil [] returning

def relay (proc : ObjId) : Callable := ⟨.bound, .direct, fun _ _ => relays proc⟩

def entersCallable (self : Value) : Script := .hostCall .bound 1 self 0 .nil (gatewayEnd 0)

/-- In a protected region a method is called, its callable calls a block, and the block raises. -/
def relaying : Script :=
  .newLexical (fun _ _ => fails) fun block =>
    .register 1 .bound .direct (relay block).body .none fun _ =>
      .newNative entersCallable fun method =>
        .protect (.callProc (.obj method) .nil [] Script.ofResult) Script.ofResult

def blockData : ProcData where
  body := .lexical fun _ _ => fails
  flags := { strict := true }

def methodData : ProcData where
  body := .native entersCallable
  flags := { native := true }

def procObject (p : ProcData) : Object := { cls := Builtin.proc.id, body := .proc p }

section Relaying

variable (m : Machine)

def relayBlock : ObjId := m.newId (procObject blockData)

def relayMethod : ObjId := (m.withNew (procObject blockData)).newId (procObject methodData)

/-- The stage when the block, the callable and the method are there, in a machine that was `m`. -/
def relayStage : Stage where
  machine := (m.withNew (procObject blockData)).withNew (procObject methodData)
  bridge := { tables := (Tables.register {} 1 (relay (relayBlock m)) .none).2 }

def inMethod : Stage :=
  ((relayStage m).onMachine Stage.shield).onMachine
    (·.inFrame ⟨none, relayMethod m, .nil, [], .nil⟩)

def inBlock : Stage := (inMethod m).onMachine (·.inFrame ⟨none, relayBlock m, .nil, [], .nil⟩)

def relayRegion : Pending := .shield (relayStage m).machine.depth Script.ofResult

def methodCall : Level := .bridged .direct 0 (relayStage m).machine.depth Script.ofResult

def blockCall : Level := .plain (inMethod m).machine.depth returning

/-- The region is about to be entered. -/
def outside : Scene :=
  ⟨.protect (.callProc (.obj (relayMethod m)) .nil [] Script.ofResult) Script.ofResult, [],
    relayStage m⟩

def inRegion : Scene :=
  ⟨.callProc (.obj (relayMethod m)) .nil [] Script.ofResult, [relayRegion m],
    (relayStage m).onMachine Stage.shield⟩

def atGate : Scene :=
  ⟨entersCallable .nil, [.call (relayStage m).machine.depth Script.ofResult, relayRegion m],
    inMethod m⟩

def inCallable : Scene :=
  ⟨relays (relayBlock m), (methodCall m).waiting ++ [relayRegion m], inMethod m⟩

/-- The block is about to raise. -/
def aboutToFail : Scene :=
  ⟨fails, ((blockCall m).waiting ++ (methodCall m).waiting) ++ [relayRegion m], inBlock m⟩

variable {m}

theorem block_isProc (tidy : m.heap.Tidy) :
    (relayStage m).machine.procData? (relayBlock m) = some blockData := by
  have first : (m.withNew (procObject blockData)).object? (relayBlock m) =
      some (procObject blockData) := by
    rw [Machine.object?_withNew tidy, relayBlock, if_pos rfl]
  exact Machine.procData?_eq_some.mpr
    ⟨_, Heap.get?_alloc_of_live (tidy.alloc _) (procObject methodData) first, rfl⟩

theorem method_isProc (tidy : m.heap.Tidy) :
    (relayStage m).machine.procData? (relayMethod m) = some methodData := by
  have present : (relayStage m).machine.object? (relayMethod m) = some (procObject methodData) := by
    rw [relayStage, Machine.object?_withNew (tidy.alloc _), relayMethod, if_pos rfl]
  exact Machine.procData?_eq_some.mpr ⟨_, present, rfl⟩

theorem step_inRegion (tidy : m.heap.Tidy) (room : m.depth + 1 < m.config.maxCallDepth.toNat) :
    (inRegion m).step = some (atGate m) :=
  Scene.step_callProc (s := (relayStage m).onMachine Stage.shield) (method_isProc tidy)
    (Nat.lt_of_succ_lt room) _ _

theorem step_inCallable (tidy : m.heap.Tidy) (room : m.depth + 1 < m.config.maxCallDepth.toNat) :
    (inCallable m).step = some (aboutToFail m) :=
  Scene.step_callProc (s := inMethod m) (block_isProc tidy) room _ _

theorem steps_aboutToFail (tidy : m.heap.Tidy)
    (room : m.depth + 1 < m.config.maxCallDepth.toNat) :
    Scene.LawfulSteps ⟨relaying, [], { machine := m }⟩ (aboutToFail m) := by
  have made : Scene.LawfulSteps ⟨relaying, [], { machine := m }⟩ (outside m) :=
    .head ⟨rfl, rfl⟩ (.head ⟨rfl, rfl⟩ (.single ⟨rfl, rfl⟩))
  exact made.trans (.head (b := inRegion m) ⟨rfl, rfl⟩ (.head ⟨rfl, step_inRegion tidy room⟩
    (.head (b := inCallable m) ⟨rfl, rfl⟩ (.single ⟨rfl, step_inCallable tidy room⟩))))

theorem sane_relayStage (sane : m.Sane) : (relayStage m).machine.Sane := by
  let made : Stage := { machine := m.withNew (procObject blockData) }
  have first : made.machine.Sane := sane.step
    (a := ⟨.newLexical (fun _ _ => fails) fun _ => Script.ret .nil, [], { machine := m }⟩)
    (b := ⟨Script.ret .nil, [], made⟩) rfl (List.forall_mem_nil _) rfl
  exact first.step (a := ⟨.newNative entersCallable fun _ => Script.ret .nil, [], made⟩)
    (b := ⟨Script.ret .nil, [], { made with machine := (relayStage m).machine }⟩) rfl
    (List.forall_mem_nil _) rfl

theorem sane_inBlock (sane : m.Sane) (room : m.depth + 1 < m.config.maxCallDepth.toNat) :
    (inBlock m).machine.Sane := by
  have entered : (inRegion m).stage.machine.Sane :=
    (sane_relayStage sane).step (a := outside m) rfl (List.forall_mem_nil _) rfl
  have called : (inMethod m).machine.Sane := by
    refine entered.step (b := atGate m) (step_inRegion sane.tidy room) ?_ rfl
    intro x handed
    cases List.mem_singleton.mp handed
    exact Machine.live_of_procData? (method_isProc sane.tidy)
  refine called.step (a := inCallable m) (step_inCallable sane.tidy room) ?_ rfl
  intro x handed
  cases List.mem_singleton.mp handed
  exact Machine.live_of_procData? (block_isProc sane.tidy)

theorem raises_aboutToFail (sane : m.Sane)
    (room : m.depth + 1 < m.config.maxCallDepth.toNat) : ∃ e s, (aboutToFail m).Throws e s ∧
      (aboutToFail m).step = some ⟨.done (.raised e),
        ((blockCall m).waiting ++ (methodCall m).waiting) ++ [relayRegion m], s⟩ := by
  have inside := sane_inBlock sane room
  obtain ⟨e, after, ran⟩ : ∃ e after, (Act.raise Builtin.runtimeError.id "boom").run.run
      (inBlock m).machine = (.ok e, after) := by
    obtain ⟨e, ran, -⟩ :=
      Act.run_raise (inside.rooted.raisable inside.tidy Builtin.runtimeError.id) "boom" rfl
    exact ⟨e, _, ran⟩
  have asked : (inBlock m).ask (Act.raise Builtin.runtimeError.id "boom") =
      some (e, { inBlock m with machine := after }) := Stage.ask_of_run ran
  refine ⟨e, _, ⟨e, asked, rfl⟩, ?_⟩
  change Option.map _ ((inBlock m).ask (Act.raise Builtin.runtimeError.id "boom")) = _
  rw [asked]
  rfl

end Relaying

theorem exception_arrives_relayed : ∃ m e s now,
    (aboutToFail m).Throws e s ∧
      (aboutToFail m).step = some ⟨.done (.raised e),
        ((blockCall m).waiting ++ (methodCall m).waiting) ++ [relayRegion m], s⟩ ∧
      Chain e 2 (.done (.raised e)) ((blockCall m).waiting ++ (methodCall m).waiting)
        Script.ofResult ∧
      Arrives now "vm" (aboutToFail m) e Script.ofResult [relayRegion m] := by
  have sane := Machine.Sane.of_original (Machine.original_opened ⟨1⟩ {})
  have room := Machine.room_opened ⟨1⟩
  generalize opened : Machine.opened ⟨1⟩ {} = m at sane room
  have run : Run Anything {}
      ((beginning relaying).showing "vm" { machine := m } (aboutToFail m)) := by
    have begun : Run Anything {} (beginning relaying) := run_beginning _ trivial trivial
    rw [← showing_beginning, opened] at begun
    exact begun.trans (run_showing (steps_aboutToFail sane.tidy room))
  obtain ⟨e, s, throws, stepped⟩ := raises_aboutToFail sane room
  have chain : Chain e 2 (.done (.raised e)) ((blockCall m).waiting ++ (methodCall m).waiting)
      Script.ofResult := .under (blockCall m) (.inl rfl) (.single (methodCall m) (.inl rfl))
  exact ⟨m, e, s, _, throws, stepped, chain,
    exception_arrives run scene?_showing throws stepped chain⟩

end Situation

end GuestVM
