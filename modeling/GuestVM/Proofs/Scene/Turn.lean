import GuestVM.Proofs.Scene
import GuestVM.Proofs.Script.Quiet

/-! # What a step can do

A step answers a request, begins something that then waits, or ends what has waited longest to be
ended.  `Turn` lists these with what is known of the machine in each; invariants of the stack of
calls, of the arena and of the current exception are case analyses of it.  On its way a step does
operations of the machine, and these are calm. -/
set_option autoImplicit false

namespace GuestVM

/-! ## Operations on a stage -/

namespace Stage

variable {α : Type} {s s' : Stage} {post : Option ObjId → α → Machine → Prop}

theorem act_ok {a : Act α} {x : α} (tidy : s.machine.heap.Tidy) (calm : a.Calm post)
    (acted : s.act a = some (.ok x, s')) :
    s.machine.Steady s'.machine ∧ post s.machine.exc x s'.machine := by
  have ran := calm s.machine tidy
  rw [Act.CalmAt, (run_of_act acted).2] at ran
  exact ran

theorem act_error {a : Act α} {e : Raised} (tidy : s.machine.heap.Tidy) (calm : a.Calm post)
    (acted : s.act a = some (.error e, s')) :
    s.machine.Steady s'.machine ∧ s'.machine.Tells e := by
  have ran := calm s.machine tidy
  rw [Act.CalmAt, (run_of_act acted).2] at ran
  exact ran

theorem ask_calm {a : Act α} {x : α} (tidy : s.machine.heap.Tidy) (calm : a.Calm post)
    (asked : s.ask a = some (x, s')) :
    s.machine.Steady s'.machine ∧ post s.machine.exc x s'.machine :=
  act_ok tidy calm (ask_eq_some.mp asked)

theorem askBridge_eq_some {d : Bridge.Deed α} {x : α} (asked : s.askBridge d = some (x, s')) :
    ∃ bridge middle, s.ask (d.run s.bridge) = some ((x, bridge), middle) ∧
      s'.machine = middle.machine := by
  unfold askBridge at asked
  split at asked
  case h_1 y bridge middle found =>
      cases asked
      exact ⟨bridge, middle, found, rfl⟩
  case h_2 => cases asked

theorem askBridge_calm {a : Answer} {r : BridgeRequest a} {x : a.Carrier}
    (tidy : s.machine.heap.Tidy) (asked : s.askBridge (Bridge.answer r) = some (x, s')) :
    s.machine.Steady s'.machine ∧ r.Told s.machine.exc x s'.machine := by
  by_cases converts : r.Converts
  · cases r with
    | intoGuest t data =>
        obtain ⟨v, after, ran, built⟩ := Act.builds_intoGuest t data s.machine tidy
        have answered : s.askBridge (Bridge.answer (.intoGuest t data)) =
            some (v, { s with machine := after }) := by
          have lifted : (((liftM (Act.intoGuest t data) : Bridge.Deed Value).run s.bridge).run.run
              s.machine) = (.ok (v, s.bridge), after) := by
            change (Act.intoGuest t data >>= fun x => pure (x, s.bridge)).run.run s.machine = _
            rw [Act.run_bind, ran]
            rfl
          change s.askBridge (liftM (Act.intoGuest t data)) = _
          simp only [askBridge, ask, act, lifted]
        cases answered.symm.trans asked
        exact ⟨built.steady, built.exc⟩
    | _ => exact converts.elim
  · obtain ⟨bridge, middle, found, machine⟩ := askBridge_eq_some asked
    have after := ask_calm tidy (Bridge.calm_answer r converts) found
    rw [machine]
    exact after

/-- Where an outcome surfaces, a failure of host code is raised anew. -/
theorem surface_calm {o : Outcome} {r : Except Raised Value} (tidy : s.machine.heap.Tidy)
    (surfaced : s.surface o = some (r, s')) :
    s.machine.Steady s'.machine ∧ ((∀ e, o ≠ .failed e) → s'.machine.exc = s.machine.exc) ∧
      ((∃ v, r = .ok v) ↔ ∃ v, o = .value v) := by
  cases o with
  | value v =>
      cases surfaced
      exact ⟨.refl _, fun _ => rfl, by simp⟩
  | raised e =>
      cases surfaced
      exact ⟨.refl _, fun _ => rfl, by simp⟩
  | failed e =>
      obtain ⟨⟨raised, after⟩, asked, same⟩ := Option.map_eq_some_iff.mp surfaced
      cases same
      exact ⟨(ask_calm tidy (Act.calm_raise _ _) asked).1, fun none => (none e rfl).elim, by simp⟩

/-- A failure is raised anew for the guest, and so is an exception that a fallible callable did not
handle. -/
def Reraises : Discipline → Outcome → Prop
  | _, .failed _ => True
  | .fallible, .raised _ => True
  | _, _ => False

theorem handOn_calm {d : Discipline} {o : Outcome} {v : Value} (tidy : s.machine.heap.Tidy)
    (handed : s.handOn d o = some (v, s')) :
    s.machine.Steady s'.machine ∧
      (Reraises d o → s'.machine.Hands v) ∧ (¬ Reraises d o → s'.machine.exc = s.machine.exc) := by
  have raising : ∀ e, s.ask (Act.raiseError e) = some (v, s') → Reraises d o →
      s.machine.Steady s'.machine ∧
        (Reraises d o → s'.machine.Hands v) ∧ (¬ Reraises d o → s'.machine.exc = s.machine.exc) := by
    intro e asked anew
    obtain ⟨steady, hands⟩ := ask_calm tidy (Act.calm_raiseError e) asked
    exact ⟨steady, fun _ => hands, fun none => (none anew).elim⟩
  cases o with
  | value v =>
      cases handed
      exact ⟨.refl _, nofun, fun _ => rfl⟩
  | raised e =>
      cases d with
      | direct =>
          cases handed
          exact ⟨.refl _, nofun, fun _ => rfl⟩
      | fallible => exact raising _ handed trivial
  | failed e =>
      refine raising e handed ?_
      cases d <;> trivial

end Stage

/-! ## Entering calls -/

namespace Act

/-- An action that raises nothing and pushes a frame, or raises and pushes none. -/
def Pushes (a : Act Script) : Prop :=
  ∀ m, m.heap.Tidy →
    match a.run.run m with
    | (.ok _, m') => ∃ f middle, m.Steady middle ∧ middle.exc = m.exc ∧
        m' = { middle with frames := f :: middle.frames }
    | (.error (.raised e), m') => m.Steady m' ∧ m'.Tells e
    | (.error .endless, _) => True

namespace Pushes

theorem ensures {a : Act Script} (pushes : Pushes a) {m : Machine} (tidy : m.heap.Tidy) :
    Ensures a m
      (fun _ m' => ∃ f middle, m.Steady middle ∧ middle.exc = m.exc ∧
        m' = { middle with frames := f :: middle.frames })
      fun e m' => m.Steady m' ∧ m'.Tells e := by
  have pushed := pushes m tidy
  refine ensures_iff.mpr ⟨fun x m' ran => ?_, fun e m' ran => ?_⟩
  · rwa [ran] at pushed
  · rwa [ran] at pushed

theorem of_ensures {a : Act Script} (ensures : ∀ m : Machine, m.heap.Tidy → Ensures a m
    (fun _ m' => ∃ f middle, m.Steady middle ∧ middle.exc = m.exc ∧
      m' = { middle with frames := f :: middle.frames })
    fun e m' => m.Steady m' ∧ m'.Tells e) : Pushes a := by
  intro m tidy
  obtain ⟨ends, raises⟩ := ensures_iff.mp (ensures m tidy)
  rcases ran : a.run.run m with ⟨(e | _) | x, after⟩
  · exact raises e after ran
  · trivial
  · exact ends x after ran

protected theorem bind {α : Type} {a : Act α} {b : α → Act Script} (first : Calm a Silent)
    (rest : ∀ x, Pushes (b x)) : Pushes (a >>= b) := by
  refine of_ensures fun m tidy => (first m tidy).ensures.bind fun x middle before => ?_
  obtain ⟨steady, silent⟩ := before
  refine ((rest x).ensures (steady.tidy tidy)).mono ?_ fun _ _ after =>
    ⟨steady.trans after.1, after.2⟩
  rintro - last ⟨f, inner, onward, exc, same⟩
  exact ⟨f, inner, steady.trans onward, exc.trans silent, same⟩

theorem get_bind {f : Machine → Act Script} (rest : ∀ m, Pushes (f m)) :
    Pushes ((get : Act Machine) >>= f) := .bind .get rest

theorem throwing_bind {α : Type} {make : Act Raised} (calm : Calm make Made)
    (rest : α → Act Script) : Pushes (throwing make >>= rest) := by
  rw [throwing_bind_eq]
  exact of_ensures fun m tidy => (calm m tidy).ensures.throwing

theorem fail_bind {α : Type} (b : Builtin) (message : String) (rest : α → Act Script) :
    Pushes (fail b message >>= rest) := throwing_bind (calm_raise b.id message) rest

theorem fail (b : Builtin) (message : String) : Pushes (fail b message) := by
  have none := fail_bind b message fun code : Script => (pure code : Act Script)
  rwa [bind_pure] at none

end Pushes

theorem pushes_enter (f : Frame) : Pushes (enter f) := by
  intro m tidy
  unfold enter
  rw [run_get_bind]
  dsimp only
  by_cases full : m.config.maxCallDepth.toNat ≤ m.depth
  · rw [if_pos full]
    exact Pushes.fail_bind _ _ _ m tidy
  · rw [if_neg full]
    cases m.procData? f.proc with
    | some p => exact ⟨f, m, .refl m, rfl, rfl⟩
    | none => exact Pushes.fail _ _ m tidy

theorem pushes_enterMethod (receiver : Value) (mid : Sym) (args : List Value) (block : Value) :
    Pushes (enterMethod receiver mid args block) := by
  refine .get_bind fun m => ?_
  dsimp only
  split
  · exact .fail_bind _ _ _
  refine .bind (calm_ofOption _) fun found => ?_
  cases found with
  | none => exact .bind (calm_ofOption _) fun _ => .fail _ _
  | some method =>
      dsimp only
      split
      · exact .fail_bind _ _ _
      · exact pushes_enter _

theorem pushes_enterProc (proc self : Value) (args : List Value) :
    Pushes (enterProc proc self args) := .bind (calm_expectProc proc) fun _ => pushes_enter _

end Act

namespace Stage

theorem pushes_error {a : Act Script} {e : Raised} {s s' : Stage} (tidy : s.machine.heap.Tidy)
    (pushes : a.Pushes) (acted : s.act a = some (.error e, s')) : s'.machine.Tells e := by
  have ran := pushes s.machine tidy
  rw [(run_of_act acted).2] at ran
  exact ran.2

end Stage

/-! ## Steps -/

/-- A walk that visits nothing leaves no trace. -/
theorem Machine.endWalk_beginWalk (m : Machine) : m.beginWalk.endWalk = m := rfl

def Pending.Walks : Pending → Prop
  | .entry .. | .object .. => True
  | _ => False

namespace Scene

/-- What ended makes the one who waits for it raise. -/
def Resurfaces : Outcome → Pending → Prop
  | o, .host discipline _ => Stage.Reraises discipline o
  | .failed _, _ => True
  | _, _ => False

/-- The step makes `e` the current exception and tells the script so: a request reports it, or a call
or a walk cannot begin.  `s` is the stage then. -/
def Throws (a : Scene) (e : Raised) (s : Stage) : Prop :=
  match a.script with
  | .guest r _ => ∃ x, a.stage.ask (Act.answer r) = some (x, s) ∧ Answer.Reports _ x e
  | .bridge r _ =>
    ∃ x, a.stage.askBridge (Bridge.answer r) = some (x, s) ∧ r.Reports x s.machine e
  | .call receiver mid args block _ =>
    a.stage.act (Act.enterMethod receiver mid args block) = some (.error e, s)
  | .callProc proc self args _ => a.stage.act (Act.enterProc proc self args) = some (.error e, s)
  | .hostCall form index _ function args _ =>
    ∃ v, a.stage.ask (Act.resolveCall (a.stage.bridge.tables.lookup index function) form function
      args) = some (.error v, s) ∧ v = e.value ∧ s.machine.Describes e
  | .walkHash route hash _ _ =>
    ∃ s', (a.stage.hook route .hash).2.act (Act.expectType hash .hash) = some (.error e, s') ∧
      s = s'.onMemory (·.unhook (a.stage.hook route .hash).1)
  | _ => False

/-- The step makes an exception current, also where what ended surfaces as a new one. -/
def Raises (a : Scene) : Prop :=
  (∃ e s, a.Throws e s) ∨
    ∃ o waiting rest, a.script = .done o ∧ a.pending = waiting :: rest ∧ Resurfaces o waiting

/-- The operations that a step does on its way have made `m` of the machine. -/
structure Did (a : Scene) (m : Machine) : Prop where
  steady : a.stage.machine.Steady m
  exc : ¬ a.Raises → m.exc = a.stage.machine.exc

inductive Turn (a b : Scene) : Prop
  | acts (did : a.Did b.stage.machine) (pending : b.pending = a.pending)
  | cuts (mark : Nat) (next : Unit → Script) (script : a.script = .guest (.arenaRestore mark) next)
      (machine : b.stage.machine =
        { a.stage.machine with heap := a.stage.machine.heap.arenaRestore mark })
      (pending : b.pending = a.pending)
  | clears (next : Unit → Script) (script : a.script = .guest .clearException next)
      (machine : b.stage.machine = { a.stage.machine with exc := none })
      (pending : b.pending = a.pending)
  | enters (f : Frame) (m : Machine) (next : Except Raised Value → Script) (did : a.Did m)
      (machine : b.stage.machine = { m with frames := f :: m.frames })
      (pending : b.pending = .call a.stage.machine.depth next :: a.pending)
  | shields (next : Except Raised Value → Script)
      (machine : b.stage.machine = Stage.shield a.stage.machine)
      (pending : b.pending = .shield a.stage.machine.depth next :: a.pending)
  | hosts (discipline : Discipline) (next : Value → Script) (did : a.Did b.stage.machine)
      (pending : b.pending = .host discipline next :: a.pending)
  | setsOff (walk : Pending) (m : Machine) (did : a.Did m) (machine : b.stage.machine = m.beginWalk)
      (pending : b.pending = walk :: a.pending) (walks : walk.Walks)
  | returns (depth : Nat) (next : Except Raised Value → Script) (o : Outcome) (m : Machine)
      (did : a.Did m) (script : a.script = .done o) (machine : b.stage.machine = m.unwound depth)
      (pending : a.pending = .call depth next :: b.pending)
  | unshields (depth : Nat) (next : Except Raised Value → Script) (o : Outcome)
      (r : Except Raised Value) (m : Machine) (did : a.Did m) (script : a.script = .done o)
      (passed : (∃ v, r = .ok v) ↔ ∃ v, o = .value v)
      (machine : b.stage.machine = Stage.unshield depth r m)
      (pending : a.pending = .shield depth next :: b.pending)
  | handsOn (discipline : Discipline) (next : Value → Script) (o : Outcome)
      (did : a.Did b.stage.machine) (script : a.script = .done o)
      (pending : a.pending = .host discipline next :: b.pending)
  | visits (walk onward : Pending) (rest : List Pending) (o : Outcome)
      (did : a.Did b.stage.machine) (script : a.script = .done o) (pending : a.pending = walk :: rest)
      (after : b.pending = onward :: rest) (walks : walk.Walks ∧ onward.Walks) (apart : walk ≠ onward)
  | arrives (walk : Pending) (o : Outcome) (m : Machine) (did : a.Did m) (script : a.script = .done o)
      (machine : b.stage.machine = m.endWalk) (pending : a.pending = walk :: b.pending)
      (walks : walk.Walks)

/-! ### Every step is a turn -/

namespace Did

variable {a : Scene}

theorem refl (a : Scene) : a.Did a.stage.machine := ⟨.refl _, fun _ => rfl⟩

theorem congr {m m' : Machine} (did : a.Did m) (same : m' = m) : a.Did m' := same ▸ did

end Did

section Steps

variable {a b : Scene} {s : Stage} {pending : List Pending}

private theorem turn_entering {begin : Act Script} {next : Except Raised Value → Script}
    {script : Script} (tidy : s.machine.heap.Tidy) (pushes : begin.Pushes)
    (throws : ∀ e s', s.act begin = some (.error e, s') → Throws ⟨script, pending, s⟩ e s')
    (entered : entering begin next pending s = some b) : Turn ⟨script, pending, s⟩ b := by
  obtain ⟨⟨code, after⟩, acted, same⟩ := Option.map_eq_some_iff.mp entered
  have ran := pushes s.machine tidy
  rw [(Stage.run_of_act acted).2] at ran
  cases code with
  | error e =>
      cases same
      exact .acts ⟨ran.1, fun quiet => (quiet (.inl ⟨e, _, throws e _ acted⟩)).elim⟩ rfl
  | ok x =>
      cases same
      obtain ⟨f, middle, steady, exc, pushed⟩ := ran
      exact .enters f middle next ⟨steady, fun _ => exc⟩ pushed rfl

private theorem turn_atEntry {m : Machine} (hook : Option Nat) (hash : Value) (removing : Bool)
    (position n : Nat) (visit : Nat → Value → Value → Script) (next : Except Raised Nat → Script) {rest : List Pending}
    {walk : Pending} {o : Outcome} (script : a.script = .done o) (waits : a.pending = walk :: rest)
    (walks : walk.Walks) (apart : walk ≠ .entry hook hash removing position n visit next)
    (did : a.Did m) (same : s.machine = m) :
    Turn a (atEntry hook hash removing position n visit next rest s) := by
  subst same
  unfold atEntry
  split
  · exact .arrives walk o s.machine did script rfl waits walks
  · exact .visits walk _ rest o did script waits rfl ⟨walks, trivial⟩ apart

/-- Where an outcome surfaces to anyone but a host call, the step raises only a failure anew. -/
private theorem did_of_surface {o : Outcome} {waiting : Pending} {rest : List Pending}
    {r : Except Raised Value} {s' : Stage} (tidy : s.machine.heap.Tidy)
    (other : ∀ d next, waiting ≠ .host d next) (surfaced : s.surface o = some (r, s')) :
    Did ⟨.done o, waiting :: rest, s⟩ s'.machine := by
  obtain ⟨steady, exc, -⟩ := Stage.surface_calm tidy surfaced
  refine ⟨steady, fun quiet => exc fun e failed => quiet ?_⟩
  subst failed
  refine .inr ⟨_, waiting, rest, rfl, rfl, ?_⟩
  cases waiting with
  | host d next => exact (other d next rfl).elim
  | _ => exact trivial

private theorem did_removeEntry {m : Machine} (did : a.Did m) (hash : Value) (position : Nat) :
    a.Did (m.removeEntry hash position) := by
  unfold Machine.removeEntry
  split
  · exact ⟨did.steady.trans (.modify _ _), did.exc⟩
  · exact did

private theorem turn_entry {o : Outcome} {hook : Option Nat} {hash : Value} {removing : Bool}
    {position n : Nat} {visit : Nat → Value → Value → Script} {next : Except Raised Nat → Script}
    {rest : List Pending} (tidy : s.machine.heap.Tidy)
    (resumed : resume o s (.entry hook hash removing position n visit next :: rest) = some b) :
    Turn ⟨.done o, .entry hook hash removing position n visit next :: rest, s⟩ b := by
  obtain ⟨⟨r, after⟩, surfaced, same⟩ := Option.map_eq_some_iff.mp resumed
  have did : Did ⟨.done o, .entry hook hash removing position n visit next :: rest, s⟩ after.machine :=
    did_of_surface tidy nofun surfaced
  dsimp only at same
  -- Going on, the walk waits for another visit, which has another number.
  have later : ∀ position', Pending.entry hook hash removing position n visit next ≠
      .entry hook hash removing position' (n + 1) visit next := by
    intro position' same
    injection same
    omega
  cases status : WalkStatus.ofResult r with
  | next =>
      rw [status] at same
      subst same
      exact turn_atEntry hook hash removing _ (n + 1) visit next rfl rfl trivial (later _) did rfl
  | remove =>
      rw [status] at same
      cases removing with
      | false =>
          subst same
          exact turn_atEntry hook hash false _ (n + 1) visit next rfl rfl trivial (later _) did rfl
      | true =>
          subst same
          exact turn_atEntry hook hash true position (n + 1) visit next rfl rfl trivial (later _)
            (did_removeEntry did hash position) rfl
  | stop =>
      rw [status] at same
      subst same
      exact .arrives _ o _ did rfl rfl rfl trivial

private theorem turn_object {o : Outcome} {hook : Option Nat} {n : Nat} {id : ObjId}
    {before others : List ObjId} {visit : Nat → ObjId → Script} {next : List ObjId → Script}
    {rest : List Pending} (tidy : s.machine.heap.Tidy)
    (resumed : resume o s (.object hook n id before others visit next :: rest) = some b) :
    Turn ⟨.done o, .object hook n id before others visit next :: rest, s⟩ b := by
  obtain ⟨⟨r, after⟩, surfaced, same⟩ := Option.map_eq_some_iff.mp resumed
  have did : Did ⟨.done o, .object hook n id before others visit next :: rest, s⟩ after.machine :=
    did_of_surface tidy nofun surfaced
  dsimp only at same
  cases status : WalkStatus.ofResult r with
  | next =>
      rw [status] at same
      subst same
      rcases atObject_cases hook (n + 1) (before ++ [id]) others visit next rest after with
        ⟨-, ended⟩ | ⟨x, left, -, -, onward⟩
      · rw [ended]
        exact .arrives _ o _ did rfl rfl rfl trivial
      · rw [onward]
        refine .visits _ _ rest o did rfl rfl rfl ⟨trivial, trivial⟩ ?_
        intro same
        injection same
        omega
  | remove | stop =>
      rw [status] at same
      subst same
      exact .arrives _ o _ did rfl rfl rfl trivial

private theorem turn_resume {o : Outcome} (tidy : s.machine.heap.Tidy)
    (resumed : resume o s pending = some b) : Turn ⟨.done o, pending, s⟩ b := by
  rcases pending with - | ⟨first, rest⟩
  · cases resumed
  cases first with
  | call depth next =>
      obtain ⟨⟨r, after⟩, surfaced, rfl⟩ := Option.map_eq_some_iff.mp resumed
      exact .returns depth next o _ (did_of_surface tidy nofun surfaced) rfl rfl rfl
  | shield depth next =>
      obtain ⟨⟨r, after⟩, surfaced, rfl⟩ := Option.map_eq_some_iff.mp resumed
      exact .unshields depth next o r _ (did_of_surface tidy nofun surfaced) rfl
        (Stage.surface_calm tidy surfaced).2.2 rfl rfl
  | host discipline next =>
      obtain ⟨⟨v, after⟩, handed, rfl⟩ := Option.map_eq_some_iff.mp resumed
      obtain ⟨steady, -, exc⟩ := Stage.handOn_calm tidy handed
      exact .handsOn discipline next o
        ⟨steady, fun quiet => exc fun anew => quiet (.inr ⟨o, _, rest, rfl, rfl, anew⟩)⟩ rfl rfl
  | entry hook hash removing position n visit next => exact turn_entry tidy resumed
  | object hook n id before others visit next => exact turn_object tidy resumed

private theorem turn_beginning (hook : Option Nat) (hash : Value) (removing : Bool)
    (visit : Nat → Value → Value → Script) (next : Except Raised Nat → Script)
    (did : a.Did s.machine) :
    Turn a (atEntry hook hash removing 0 0 visit next a.pending (s.onMachine Machine.beginWalk)) := by
  unfold atEntry
  split
  · exact .acts (did.congr (Machine.endWalk_beginWalk _)) rfl
  · exact .setsOff _ s.machine did rfl rfl trivial

end Steps

theorem turn_of_step {a b : Scene} (stepped : a.step = some b) (tidy : a.stage.machine.heap.Tidy) :
    Turn a b := by
  obtain ⟨script, pending, s⟩ := a
  cases script with
  | done o => exact turn_resume tidy stepped
  | guest r next =>
      obtain ⟨⟨x, after⟩, asked, same⟩ := Option.map_eq_some_iff.mp stepped
      subst same
      by_cases plain : r.Plain
      · obtain ⟨steady, told⟩ := Stage.ask_calm tidy (Act.calm_answer r plain) asked
        refine .acts ⟨steady, fun quiet => told.silent fun e reports => ?_⟩ rfl
        exact quiet (.inl ⟨e, after, x, asked, reports⟩)
      · cases r with
        | arenaRestore mark =>
            cases asked
            exact .cuts mark next rfl rfl rfl
        | clearException =>
            cases asked
            exact .clears next rfl rfl rfl
        | _ => exact (plain trivial).elim
  | bridge r next =>
      obtain ⟨⟨x, after⟩, asked, same⟩ := Option.map_eq_some_iff.mp stepped
      obtain ⟨steady, told⟩ := Stage.askBridge_calm tidy asked
      subst same
      refine .acts ⟨steady, fun quiet => told.silent fun e reports => ?_⟩ rfl
      exact quiet (.inl ⟨e, after, x, asked, reports⟩)
  | memo r next =>
      cases stepped
      exact .acts (.refl _) rfl
  | call receiver mid args block next =>
      exact turn_entering tidy (Act.pushes_enterMethod receiver mid args block) (fun _ _ acted => acted)
        stepped
  | callProc proc self args next =>
      exact turn_entering tidy (Act.pushes_enterProc proc self args) (fun _ _ acted => acted) stepped
  | protect body next =>
      cases stepped
      exact .shields next rfl rfl
  | newNative body next =>
      simp only [step] at stepped
      obtain ⟨⟨id, after⟩, asked, rfl⟩ := Option.map_eq_some_iff.mp stepped
      obtain ⟨steady, exc⟩ := Stage.ask_calm tidy (Act.calm_newNative body) asked
      exact .acts ⟨steady, fun _ => exc⟩ rfl
  | newLexical body next =>
      simp only [step] at stepped
      obtain ⟨⟨id, after⟩, asked, rfl⟩ := Option.map_eq_some_iff.mp stepped
      obtain ⟨steady, exc⟩ := Stage.ask_calm tidy (Act.calm_newLexical body) asked
      exact .acts ⟨steady, fun _ => exc⟩ rfl
  | register index form discipline body aspec next =>
      cases stepped
      exact .acts (.refl _) rfl
  | hostCall form index receiver function args next =>
      obtain ⟨⟨admitted, after⟩, asked, same⟩ := Option.map_eq_some_iff.mp stepped
      obtain ⟨steady, refused⟩ := Stage.ask_calm tidy (Act.calm_resolveCall _ form function args) asked
      cases admitted with
      | error v =>
          cases same
          refine .acts ⟨steady, fun quiet => ?_⟩ rfl
          obtain ⟨e, reported⟩ := Machine.Hands.described refused
          exact (quiet (.inl ⟨e, after, v, asked, reported⟩)).elim
      | ok c =>
          cases same
          exact .hosts c.discipline next ⟨steady, fun _ => refused⟩ rfl
  | walkHash route hash visit next =>
      obtain ⟨⟨checked, after⟩, acted, same⟩ := Option.map_eq_some_iff.mp stepped
      have tidy : (s.hook route .hash).2.machine.heap.Tidy := tidy
      have calm := Act.calm_expectType hash .hash
      cases checked with
      | error e =>
          cases same
          obtain ⟨steady, -⟩ := Stage.act_error tidy calm acted
          exact .acts ⟨steady, fun quiet => (quiet (.inl ⟨e, _, after, acted, rfl⟩)).elim⟩ rfl
      | ok id =>
          cases same
          obtain ⟨steady, exc⟩ := Stage.act_ok tidy calm acted
          exact turn_beginning _ hash _ visit next ⟨steady, fun _ => exc⟩
  | walkHeap route visit next =>
      cases stepped
      rcases atObject_cases (s.hook route .object).1 0 [] s.machine.heap.liveIds visit next pending
        ((s.hook route .object).2.onMachine Machine.beginWalk) with
        ⟨-, ended⟩ | ⟨id, rest, -, -, onward⟩
      · exact .acts ((Did.refl _).congr (congrArg (·.stage.machine) ended)) (congrArg (·.pending) ended)
      · exact .setsOff (.object _ 0 id [] rest visit next) s.machine (.refl _)
          (congrArg (·.stage.machine) onward) (congrArg (·.pending) onward) trivial

/-! ### What is thrown -/

section Throwing

variable {a b : Scene} {e : Raised} {s : Stage}

/-- What a step throws is the current exception afterwards, described as it is. -/
theorem Throws.tells (throws : a.Throws e s) (tidy : a.stage.machine.heap.Tidy) :
    s.machine.Tells e := by
  obtain ⟨script, pending, stage⟩ := a
  cases script with
  | guest r next =>
      obtain ⟨x, asked, reports⟩ := throws
      by_cases plain : r.Plain
      · exact (Stage.ask_calm tidy (Act.calm_answer r plain) asked).2.tells reports
      · cases r with
        | arenaRestore mark => exact reports.elim
        | clearException => exact reports.elim
        | _ => exact (plain trivial).elim
  | bridge r next =>
      obtain ⟨x, asked, reports⟩ := throws
      exact (Stage.askBridge_calm tidy asked).2.tells reports
  | call receiver mid args block next =>
      exact Stage.pushes_error tidy (Act.pushes_enterMethod receiver mid args block) throws
  | callProc proc self args next =>
      exact Stage.pushes_error tidy (Act.pushes_enterProc proc self args) throws
  | hostCall form index receiver function args next =>
      obtain ⟨v, asked, reports⟩ := throws
      have refused := (Stage.ask_calm tidy (Act.calm_resolveCall _ form function args) asked).2
      exact Machine.Hands.tells refused reports
  | walkHash route hash visit next =>
      obtain ⟨s', acted, rfl⟩ := throws
      have tidy : (stage.hook route .hash).2.machine.heap.Tidy := tidy
      exact (Stage.act_error tidy (Act.calm_expectType hash .hash) acted).2
  | _ => exact throws.elim

theorem Throws.stage (throws : a.Throws e s) (stepped : a.step = some b) :
    b.stage = s ∧ b.pending = a.pending := by
  obtain ⟨script, pending, stage⟩ := a
  cases script with
  | guest r next | bridge r next =>
      obtain ⟨x, asked, -⟩ := throws
      simp only [step, asked, Option.map_some, Option.some.injEq] at stepped
      exact stepped ▸ ⟨rfl, rfl⟩
  | call receiver mid args block next =>
      have acted : stage.act (Act.enterMethod receiver mid args block) = some (.error e, s) := throws
      simp only [step, entering, acted, Option.map_some, Option.some.injEq] at stepped
      exact stepped ▸ ⟨rfl, rfl⟩
  | callProc proc self args next =>
      have acted : stage.act (Act.enterProc proc self args) = some (.error e, s) := throws
      simp only [step, entering, acted, Option.map_some, Option.some.injEq] at stepped
      exact stepped ▸ ⟨rfl, rfl⟩
  | hostCall form index receiver function args next =>
      obtain ⟨v, asked, -⟩ := throws
      simp only [step, asked, Option.map_some, Option.some.injEq] at stepped
      exact stepped ▸ ⟨rfl, rfl⟩
  | walkHash route hash visit next =>
      obtain ⟨s', acted, rfl⟩ := throws
      dsimp only at acted
      simp only [step, acted, Option.map_some, Option.some.injEq] at stepped
      exact stepped ▸ ⟨rfl, rfl⟩
  | _ => exact throws.elim

end Throwing

end Scene

end GuestVM
