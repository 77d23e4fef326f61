import GuestVM.Proofs.Bridge.Events
import GuestVM.Proofs.Scene.Running
import GuestVM.Proofs.Scene.Turn

/-! # Calls are balanced

Whatever code does while somebody waits for it, the one who waits finds the running calls, the
protected regions and the walks as they were.  The invariant describes them by what waits: each call
that waits has one frame, each protected region and each walk counts one, and a call or region
remembers the depth that its end goes back to. -/
set_option autoImplicit false

namespace GuestVM

/-! ## What waits accounts for the stack -/

/-- The frames, the number of regions and the number of walks of a machine that was as `base` when
`outer` was all that waited. -/
inductive Stacked (base : Machine) (outer : List Pending) :
    List Pending → List Frame → Nat → Nat → Prop
  | base : Stacked base outer outer base.frames base.protectDepth base.heap.walks
  | call {pending : List Pending} {frames : List Frame} {regions walks : Nat} (f : Frame)
      (next : Except Raised Value → Script) (below : Stacked base outer pending frames regions walks) :
      Stacked base outer (.call frames.length next :: pending) (f :: frames) regions walks
  | shield {pending : List Pending} {frames : List Frame} {regions walks : Nat}
      (next : Except Raised Value → Script) (below : Stacked base outer pending frames regions walks) :
      Stacked base outer (.shield frames.length next :: pending) frames (regions + 1) walks
  | host {pending : List Pending} {frames : List Frame} {regions walks : Nat}
      (discipline : Discipline) (next : Value → Script)
      (below : Stacked base outer pending frames regions walks) :
      Stacked base outer (.host discipline next :: pending) frames regions walks
  | walk {pending : List Pending} {frames : List Frame} {regions walks : Nat} (walk : Pending)
      (is : walk.Walks) (below : Stacked base outer pending frames regions walks) :
      Stacked base outer (walk :: pending) frames regions (walks + 1)

theorem Pending.not_cons_suffix {p : Pending} {rest : List Pending} : ¬ p :: rest <:+ rest := by
  intro inside
  have shorter := inside.length_le
  rw [List.length_cons] at shorter
  omega

/-- What one that waits adds to what is below it. -/
def Pending.Accounts (p : Pending) (frames below : List Frame) (regions regions' walks walks' : Nat) :
    Prop :=
  match p with
  | .call depth _ =>
    (∃ f, frames = f :: below) ∧ depth = below.length ∧ regions = regions' ∧ walks = walks'
  | .shield depth _ =>
    frames = below ∧ depth = frames.length ∧ regions = regions' + 1 ∧ walks = walks'
  | .host _ _ => frames = below ∧ regions = regions' ∧ walks = walks'
  | _ => frames = below ∧ regions = regions' ∧ walks = walks' + 1

theorem Pending.Walks.accounts {p : Pending} {frames below : List Frame}
    {regions regions' walks walks' : Nat} (is : p.Walks) :
    p.Accounts frames below regions regions' walks walks' ↔
      frames = below ∧ regions = regions' ∧ walks = walks' + 1 := by
  cases p with
  | entry => exact Iff.rfl
  | object => exact Iff.rfl
  | _ => exact is.elim

namespace Stacked

variable {base : Machine} {outer pending : List Pending} {frames : List Frame}
  {regions walks : Nat}

theorem suffix (stacked : Stacked base outer pending frames regions walks) : outer <:+ pending := by
  induction stacked with
  | base => exact List.suffix_rfl
  | call f next below ih => exact ih.trans (List.suffix_cons _ _)
  | shield next below ih => exact ih.trans (List.suffix_cons _ _)
  | host discipline next below ih => exact ih.trans (List.suffix_cons _ _)
  | walk walk is below ih => exact ih.trans (List.suffix_cons _ _)

/-- The calls of the beginning go on below. -/
theorem frames_suffix (stacked : Stacked base outer pending frames regions walks) :
    base.frames <:+ frames := by
  induction stacked with
  | base => exact List.suffix_rfl
  | call f next below ih => exact ih.trans (List.suffix_cons _ _)
  | _ => assumption

/-- When nothing waits above `outer`, everything is as it was. -/
theorem same (stacked : Stacked base outer outer frames regions walks) :
    frames = base.frames ∧ regions = base.protectDepth ∧ walks = base.heap.walks := by
  cases stacked with
  | base => exact ⟨rfl, rfl, rfl⟩
  | call f next below => exact (Pending.not_cons_suffix below.suffix).elim
  | shield next below => exact (Pending.not_cons_suffix below.suffix).elim
  | host discipline next below => exact (Pending.not_cons_suffix below.suffix).elim
  | walk walk is below => exact (Pending.not_cons_suffix below.suffix).elim

/-- What the first that waits above `outer` accounts for. -/
theorem pop {p : Pending} {rest : List Pending}
    (stacked : Stacked base outer (p :: rest) frames regions walks) (inside : outer <:+ rest) :
    ∃ frames' regions' walks', Stacked base outer rest frames' regions' walks' ∧
      p.Accounts frames frames' regions regions' walks walks' := by
  generalize all : p :: rest = pending at stacked
  cases stacked with
  | base => exact (Pending.not_cons_suffix (all ▸ inside)).elim
  | call f next below =>
      cases all
      exact ⟨_, _, _, below, ⟨f, rfl⟩, rfl, rfl, rfl⟩
  | shield next below =>
      cases all
      exact ⟨_, _, _, below, rfl, rfl, rfl, rfl⟩
  | host discipline next below =>
      cases all
      exact ⟨_, _, _, below, rfl, rfl, rfl⟩
  | walk walk is below =>
      cases all
      exact ⟨_, _, _, below, is.accounts.mpr ⟨rfl, rfl, rfl⟩⟩

end Stacked

/-- The end of a region that began at the depth that there is now. -/
theorem Stage.unshield_stack {m : Machine} {depth : Nat} {r : Except Raised Value}
    (level : depth = m.frames.length) :
    (unshield depth r m).frames = m.frames ∧ (unshield depth r m).protectDepth = m.protectDepth - 1 ∧
      (unshield depth r m).heap.walks = m.heap.walks := by
  cases r with
  | ok v => exact ⟨rfl, rfl, rfl⟩
  | error e =>
      have whole : m.frames.drop (m.frames.length - depth) = m.frames := by simp [level]
      cases object : e.value.asObj <;> simp [unshield, Machine.unwound, object, Heap.arenaPush, whole]

namespace Scene

variable {base : Machine} {outer : List Pending} {a b : Scene}

/-- The code that runs was begun, directly or not, by code for which `outer` waits. -/
def Above (base : Machine) (outer : List Pending) (a : Scene) : Prop :=
  Stacked base outer a.pending a.stage.machine.frames a.stage.machine.protectDepth
    a.stage.machine.heap.walks

theorem Above.refl (a : Scene) : a.Above a.stage.machine a.pending := .base

theorem Above.of_steady {m : Machine} (above : a.Above base outer) (did : a.Did m) :
    Stacked base outer a.pending m.frames m.protectDepth m.heap.walks := by
  rw [did.steady.frames, did.steady.regions, did.steady.walks]
  exact above

/-- A step keeps the account, unless it ends what `outer` waits for. -/
theorem above_step (above : a.Above base outer) (stepped : a.step = some b)
    (tidy : a.stage.machine.heap.Tidy) (inside : outer <:+ b.pending) : b.Above base outer := by
  unfold Above
  cases turn_of_step stepped tidy with
  | acts did pending =>
      rw [pending]
      exact above.of_steady did
  | cuts mark next script machine pending =>
      rw [pending, machine]
      exact above
  | clears next script machine pending =>
      rw [pending, machine]
      exact above
  | enters f m next did machine pending =>
      have below := above.of_steady did
      have depth : a.stage.machine.depth = m.frames.length := by
        rw [did.steady.frames, Machine.depth]
      rw [pending, machine, depth]
      exact .call f next below
  | shields next machine pending =>
      rw [pending, machine]
      exact .shield next above
  | hosts discipline next did pending =>
      rw [pending]
      exact .host discipline next (above.of_steady did)
  | setsOff walk m did machine pending walks =>
      rw [pending, machine]
      exact .walk walk walks (above.of_steady did)
  | returns depth next o m did script machine pending =>
      have stacked := above.of_steady did
      rw [pending] at stacked
      obtain ⟨frames, regions, walks, below, ⟨f, pushed⟩, depth', rfl, rfl⟩ := stacked.pop inside
      have back : (m.unwound depth).frames = frames := by
        simp [Machine.unwound, pushed, depth']
      rw [machine, back]
      exact below
  | unshields depth next o r m did script passed machine pending =>
      have stacked := above.of_steady did
      rw [pending] at stacked
      obtain ⟨frames, regions, walks, below, rfl, depth', region, rfl⟩ := stacked.pop inside
      obtain ⟨same, lowered, walks⟩ := Stage.unshield_stack (r := r) depth'
      rw [machine, same, lowered, walks, region]
      exact below
  | handsOn discipline next o did script pending =>
      have stacked := above.of_steady did
      rw [pending] at stacked
      obtain ⟨frames, regions, walks, below, rfl, rfl, rfl⟩ := stacked.pop inside
      exact below
  | visits walk onward rest o did script pending after walks apart =>
      have stacked := above.of_steady did
      rw [pending] at stacked
      rw [after] at inside ⊢
      have within : outer <:+ rest := by
        rcases List.suffix_cons_iff.mp inside with whole | within
        · have same := stacked.suffix.eq_of_length (by simp [whole])
          exact (apart (List.cons.inj (same.symm.trans whole)).1).elim
        · exact within
      obtain ⟨frames, regions, count, below, facts⟩ := stacked.pop within
      obtain ⟨same, same', counted⟩ := walks.1.accounts.mp facts
      rw [same, same', counted]
      exact .walk onward walks.2 below
  | arrives walk o m did script machine pending walks =>
      have stacked := above.of_steady did
      rw [pending] at stacked
      obtain ⟨frames, regions, count, below, facts⟩ := stacked.pop inside
      obtain ⟨rfl, rfl, counted⟩ := walks.accounts.mp facts
      have ended : m.endWalk.heap.walks = count := by
        simp [Machine.endWalk, Heap.endWalk, counted]
      rw [machine, ended]
      exact below

end Scene

/-! ## Before and after -/

/-- The running calls are the same frame for frame, and so are the numbers of protected regions and
walks. -/
structure Machine.SameCalls (m m' : Machine) : Prop where
  frames : m'.frames = m.frames
  regions : m'.protectDepth = m.protectDepth
  walks : m'.heap.walks = m.heap.walks

namespace Machine.SameCalls

variable {m m' : Machine}

theorem args (same : m.SameCalls m') : m'.args = m.args := by
  rw [Machine.args, same.frames]
  rfl

theorem block (same : m.SameCalls m') : m'.block = m.block := by
  rw [Machine.block, same.frames]
  rfl

theorem methodName (same : m.SameCalls m') : m'.methodName = m.methodName := by
  rw [Machine.methodName, same.frames]
  rfl

theorem currentProc (same : m.SameCalls m') : m'.currentProc = m.currentProc := by
  rw [Machine.currentProc, same.frames]
  rfl

end Machine.SameCalls

namespace Scene

variable {base : Machine} {outer : List Pending} {a b : Scene}

theorem Above.sameCalls (above : b.Above base outer) (back : b.pending = outer) :
    base.SameCalls b.stage.machine := by
  unfold Above at above
  rw [back] at above
  obtain ⟨frames, regions, walks⟩ := above.same
  exact ⟨frames, regions, walks⟩

theorem above_steps (above : a.Above base outer) (steps : StepsOver outer a b)
    (tidy : a.stage.machine.heap.Tidy) :
    b.Above base outer ∧ b.stage.machine.heap.Tidy := by
  induction steps with
  | refl => exact ⟨above, tidy⟩
  | tail _ stepped ih =>
      obtain ⟨before, tidy⟩ := ih
      exact ⟨above_step before stepped.1 tidy stepped.2,
        (step_evolution stepped.1 tidy).1.tidy tidy⟩

/-- Code that is run to its end by itself. -/
theorem sameCalls_of_steps {script script' : Script} {s s' : Stage}
    (steps : Steps ⟨script, [], s⟩ ⟨script', [], s'⟩) (tidy : s.machine.heap.Tidy) :
    s.machine.SameCalls s'.machine :=
  (above_steps (Above.refl ⟨script, [], s⟩) (.of_steps steps) tidy).1.sameCalls rfl

end Scene

namespace Stage

variable {s s' : Stage} {r : Except Raised Value}

theorem sameCalls_call {fuel : Nat} {receiver block : Value} {mid : Sym} {args : List Value}
    (tidy : s.machine.heap.Tidy)
    (called : callWith (run fuel) (Act.enterMethod receiver mid args block) s = some (r, s')) :
    s.machine.SameCalls s'.machine := by
  have steps : Scene.Steps ⟨.call receiver mid args block Script.ofResult, [], s⟩
      ⟨Script.ofResult r, [], s'⟩ := Scene.steps_callWith (Scene.steps_of_run fuel) rfl called
  exact Scene.sameCalls_of_steps steps tidy

theorem sameCalls_callProc {fuel : Nat} {proc self : Value} {args : List Value}
    (tidy : s.machine.heap.Tidy)
    (called : callWith (run fuel) (Act.enterProc proc self args) s = some (r, s')) :
    s.machine.SameCalls s'.machine := by
  have steps : Scene.Steps ⟨.callProc proc self args Script.ofResult, [], s⟩
      ⟨Script.ofResult r, [], s'⟩ := Scene.steps_callWith (Scene.steps_of_run fuel) rfl called
  exact Scene.sameCalls_of_steps steps tidy

theorem sameCalls_protect {fuel : Nat} {body : Script} (tidy : s.machine.heap.Tidy)
    (guarded : protectWith (run fuel body) s = some (r, s')) :
    s.machine.SameCalls s'.machine := by
  have steps : Scene.Steps ⟨.protect body Script.ofResult, [], s⟩ ⟨Script.ofResult r, [], s'⟩ :=
    Scene.steps_protectWith (fun s o s' ran => Scene.steps_of_run fuel body s o s' ran) guarded
  exact Scene.sameCalls_of_steps steps tidy

end Stage

/-! ## The limit of the depth -/

/-- The running calls are within the limit. -/
def Machine.Shallow (m : Machine) : Prop := m.depth ≤ m.config.maxCallDepth.toNat

theorem Change.shallow {g : Grant} {m m' : Machine} (change : Change g m m') (shallow : m.Shallow) :
    m'.Shallow := by
  cases change with
  | enter f p isProc room => exact room
  | unwind depth =>
      have shorter : (m.unwound depth).depth ≤ m.depth := by
        simp [Machine.depth, Machine.unwound]
      exact Nat.le_trans shorter shallow
  | _ => exact shallow

theorem Evolution.shallow {g : Grant} {m m' : Machine} (evolution : Evolution g m m')
    (shallow : m.Shallow) : m'.Shallow := by
  induction evolution with
  | refl => exact shallow
  | tail _ change ih => exact change.shallow ih

namespace Situation

attribute [local irreducible] Machine.opened

variable {now later : Situation} {name : String} {i : Instance} {a b : Scene} {move : Move}
  {allowed : Situation → Move → Prop} {outer : List Pending}

theorem shallow_of_run (run : Run allowed {} now) (present : now.world.instance? name = some i) :
    i.machine.Shallow := by
  have both := Run.machines (P := fun m => m.heap.Tidy ∧ m.Shallow) (fun h c => ?_) ?_ run present
  · exact both.2
  · have original := Machine.original_opened h c
    exact ⟨original.tidy, by simp [Machine.Shallow, Machine.depth, original.frames]⟩
  · intro now name a b may shown lawful stepped both
    have evolution := (Scene.step_evolution stepped both.1).1
    exact ⟨evolution.tidy both.1, evolution.shallow both.2⟩

/-! ## Moves and the code of one machine -/

/-- What runs in a machine goes on by its own step; other moves leave it where it is. -/
theorem Next.scene (moved : Next now move later) (shown : now.scene? name = some a)
    (after : later.scene? name = some b) :
    (move = .act name ∧ a.step = some b) ∨
      (b.script = a.script ∧ b.pending = a.pending ∧ b.stage.machine = a.stage.machine) := by
  obtain ⟨i, present, machine, -, playing⟩ := scene?_eq_some shown
  obtain ⟨j, present', machine', -, playing'⟩ := scene?_eq_some after
  have kept : move ≠ .close name := by
    intro same
    subst same
    cases moved with
    | close _ idle =>
        rw [playing] at idle
        cases idle
  have elsewhere : ∀ other : String, name ≠ other → ∀ p : Option Play,
      later.plays = Function.update now.plays other p → later.plays name = now.plays name := by
    intro other apart p plays
    rw [plays, Function.update_of_ne apart]
  have rests : later.plays name = now.plays name → j.machine = i.machine →
      b.script = a.script ∧ b.pending = a.pending ∧ b.stage.machine = a.stage.machine := by
    intro plays same
    rw [playing', playing] at plays
    injection plays with plays
    injection plays with script pending memory
    exact ⟨script, pending, machine'.trans (same.trans machine.symm)⟩
  obtain ⟨k, found, -, how⟩ := moved.onward present kept
  cases present'.symm.trans found
  by_cases own : move = .act name
  · subst own
    obtain ⟨x, c, -, -, stepped, rfl⟩ := moved.acted shown
    cases scene?_showing.symm.trans after
    exact .inl ⟨rfl, stepped⟩
  · have still : j.machine = i.machine := by
      rcases how with same | ⟨x, y, is, -⟩
      · exact same
      · exact (own is).elim
    refine .inr (rests ?_ still)
    cases moved with
    | openBare => rfl
    | openLinked => rfl
    | close => rfl
    | begin begun script _ _ idle =>
        refine elsewhere begun ?_ _ rfl
        intro same
        rw [← same, playing] at idle
        cases idle
    | act acting =>
        refine elsewhere acting ?_ _ rfl
        intro same
        exact own (same ▸ rfl)
    | finish finished =>
        refine elsewhere finished ?_ _ rfl
        intro same
        subst same
        cases (Function.update_self name none now.plays).symm.trans playing'

/-- The code for which `outer` waits, or code that it began, runs in a machine. -/
def Inside (name : String) (outer : List Pending) (now : Situation) : Prop :=
  ∃ a, now.scene? name = some a ∧ outer <:+ a.pending

theorem above_run {base : Machine} (run : Run allowed {} now) (shown : now.scene? name = some a)
    (above : a.Above base outer) (inside : Run (fun s _ => Inside name outer s) now later)
    (still : Inside name outer later) :
    Run Anything {} later ∧ ∃ b, later.scene? name = some b ∧ b.Above base outer := by
  induction inside with
  | refl => exact ⟨run.mono fun _ _ _ => trivial, a, shown, above⟩
  | tail _ moved ih =>
      obtain ⟨move, here, moved⟩ := moved
      obtain ⟨run, x, found, above⟩ := ih here
      obtain ⟨b, after, suffix⟩ := still
      refine ⟨run.tail ⟨move, trivial, moved⟩, b, after, ?_⟩
      rcases moved.scene found after with ⟨-, stepped⟩ | ⟨-, pending, machine⟩
      · exact Scene.above_step above stepped (tidy_of_shown run found) suffix
      · unfold Scene.Above
        rw [pending, machine]
        exact above

/-! ## Balance -/

/-- What code of a machine can rely on, from a scene `a` of it on. -/
structure Balanced (name : String) (a : Scene) (later : Situation) : Prop where
  /-- Meanwhile the depth stays within its limit. -/
  limited : ∀ b, later.scene? name = some b → b.stage.machine.Shallow
  /-- Whenever the code goes on, with nothing waiting but what waited before, it finds the running
  calls, the regions and the walks that were there before. -/
  back : ∀ b, later.scene? name = some b → b.pending = a.pending →
    a.stage.machine.SameCalls b.stage.machine
  /-- Then what it is told of its own call is what it was told before. -/
  told : ∀ b, later.scene? name = some b → b.pending = a.pending →
    b.stage.machine.args = a.stage.machine.args ∧ b.stage.machine.block = a.stage.machine.block ∧
      b.stage.machine.methodName = a.stage.machine.methodName ∧
      b.stage.machine.currentProc = a.stage.machine.currentProc
  /-- Calls by name, calls of procs and protected regions that are run to their end leave the stack
  as it was, whatever they end with. -/
  calls : ∀ fuel receiver mid args block r s,
    Stage.callWith (Stage.run fuel) (Act.enterMethod receiver mid args block) a.stage = some (r, s) →
    a.stage.machine.SameCalls s.machine
  procs : ∀ fuel proc self args r s,
    Stage.callWith (Stage.run fuel) (Act.enterProc proc self args) a.stage = some (r, s) →
    a.stage.machine.SameCalls s.machine
  regions : ∀ fuel body r s, Stage.protectWith (Stage.run fuel body) a.stage = some (r, s) →
    a.stage.machine.SameCalls s.machine

theorem balanced (run : Run Anything {} now) (shown : now.scene? name = some a)
    (inside : Run (fun s _ => Inside name a.pending s) now later)
    (still : Inside name a.pending later) : Balanced name a later := by
  obtain ⟨onward, x, found, above⟩ := above_run run shown (.refl a) inside still
  have tidy := tidy_of_shown run shown
  have back : ∀ b, later.scene? name = some b → b.pending = a.pending →
      a.stage.machine.SameCalls b.stage.machine := by
    intro b after level
    cases found.symm.trans after
    exact above.sameCalls level
  constructor
  · intro b after
    obtain ⟨j, present', machine', -⟩ := scene?_eq_some after
    rw [machine']
    exact shallow_of_run onward present'
  · exact back
  · intro b after level
    have same := back b after level
    exact ⟨same.args, same.block, same.methodName, same.currentProc⟩
  · intro fuel receiver mid args block r s called
    exact Stage.sameCalls_call tidy called
  · intro fuel proc self args r s called
    exact Stage.sameCalls_callProc tidy called
  · intro fuel body r s guarded
    exact Stage.sameCalls_protect tidy guarded

/-- A script that calls a proc in a protected region; the proc raises. -/
def stumble : Script :=
  .newLexical (fun _ _ => .guest (.raise Builtin.runtimeError.id "boom") fun e => .done (.raised e))
    fun proc => .protect (.callProc (.obj proc) .nil [.int 7] Script.ofResult) Script.ofResult

theorem stumble_ends : ∃ e s,
    Stage.run 1 stumble { machine := .opened ⟨1⟩ {} } = some (.raised e, s) := by
  have checked : ((Stage.run 1 stumble { machine := .opened ⟨1⟩ {} }).any fun ended =>
      match ended.1 with
      | .raised _ => true
      | _ => false) = true := by decide +kernel
  obtain ⟨⟨o, s⟩, ran, raised⟩ := (Option.any_eq_true _ _).mp checked
  cases o with
  | raised e => exact ⟨e, s, ran⟩
  | _ => cases raised

theorem balanced_stumble : ∃ e s,
    Stage.run 1 stumble { machine := .opened ⟨1⟩ {} } = some (.raised e, s) ∧
      Balanced "vm" ⟨stumble, [], { machine := .opened ⟨1⟩ {} }⟩
        ((beginning stumble).showing "vm" { machine := .opened ⟨1⟩ {} } ⟨.done (.raised e), [], s⟩) := by
  obtain ⟨e, s, ran⟩ := stumble_ends
  have replayed : ((Scene.replay Scene.Lawful 6 ⟨stumble, [], { machine := .opened ⟨1⟩ {} }⟩).any
      fun b => b.step.isNone) = true := by decide +kernel
  obtain ⟨b, reached, halted⟩ := (Option.any_eq_true _ _).mp replayed
  have steps := Scene.lawfulSteps_of_run ran reached (Option.isNone_iff_eq_none.mp halted)
  have inside : Run (fun s _ => Inside "vm" [] s)
      ((beginning stumble).showing "vm" { machine := .opened ⟨1⟩ {} }
        ⟨stumble, [], { machine := .opened ⟨1⟩ {} }⟩)
      ((beginning stumble).showing "vm" { machine := .opened ⟨1⟩ {} } ⟨.done (.raised e), [], s⟩) :=
    run_while steps fun x lawful => ⟨lawful, x, scene?_showing, List.nil_suffix⟩
  rw [showing_beginning] at inside
  exact ⟨e, s, ran, balanced (run_beginning stumble trivial trivial) rfl inside
    ⟨_, scene?_showing, List.nil_suffix⟩⟩

end Situation

end GuestVM
