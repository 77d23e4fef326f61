import GuestVM.Proofs.Script.Granting
import GuestVM.Stage

/-! # Running scripts step by step

A scene is a moment of a run: the code that runs now, what waits for it to end, and the stage.
`Scene.step` does one request, begins one call, protected region or visit, or ends one.  A script
that `Stage.run` brings to an end is brought to the same end by steps (`steps_of_run`), so whatever
holds at every scene holds at every point of a run, also in the middle of calls, protected regions
and walks.

A step is an evolution of the machine under the grant of its scene, and changes the bridge only by
what the scene asks of it (`step_evolution`). -/
set_option autoImplicit false

namespace GuestVM

/-- What waits for running code to end. -/
inductive Pending where
  /-- A call that began at a depth. -/
  | call (depth : Nat) (next : Except Raised Value → Script)
  /-- A protected region that began at a depth. -/
  | shield (depth : Nat) (next : Except Raised Value → Script)
  | host (discipline : Discipline) (next : Value → Script)
  /-- Visit number `n` of a hash walk, of the entry at a position. -/
  | entry (hook : Option Nat) (hash : Value) (removing : Bool) (position n : Nat)
      (visit : Nat → Value → Value → Script) (next : Except Raised Nat → Script)
  /-- Visit number `n` of a heap walk, after the ids in `before`. -/
  | object (hook : Option Nat) (n : Nat) (id : ObjId) (before rest : List ObjId)
      (visit : Nat → ObjId → Script) (next : List ObjId → Script)

structure Scene where
  script : Script
  pending : List Pending := []
  stage : Stage

/-- A call back comes either to the visit or to what stands for it. -/
theorem Memory.callback_cases (m : Memory) (kind : HookKind) (hook : Option Nat) :
    (∀ {α : Type} (visit stray : α), m.callback kind hook visit stray = visit) ∨
      ∀ {α : Type} (visit stray : α), m.callback kind hook visit stray = stray := by
  cases hook with
  | none => exact .inl fun _ _ => rfl
  | some address =>
      cases live : m.hooks.isLive address kind with
      | true => exact .inl fun _ _ => by rw [callback, Hooks.callback, live, if_pos rfl]
      | false => exact .inr fun _ _ => by rw [callback, Hooks.callback, live]; rfl

/-- Code of the machine needs no hook for its walks. -/
theorem Stage.hook_direct (s : Stage) (kind : HookKind) : s.hook .direct kind = (none, s) := rfl

namespace Scene

/-! ## Steps -/

/-- What a hook that is not live runs. -/
def stray : Script := Script.ret WalkStatus.stray.value

/-- Goes on with a hash walk at a position, after `n` visits. -/
def atEntry (hook : Option Nat) (hash : Value) (removing : Bool) (position n : Nat)
    (visit : Nat → Value → Value → Script) (next : Except Raised Nat → Script)
    (pending : List Pending) (s : Stage) : Scene :=
  match (s.machine.table hash).entryAt? position with
  | none => ⟨next (.ok n), pending, s.endWalk hook⟩
  | some (key, v) =>
    ⟨s.memory.callback .hash hook (visit n key v) stray,
      .entry hook hash removing position n visit next :: pending, s⟩

/-- Goes on with a heap walk at the ids in `rest`, after `n` visits. -/
def atObject (hook : Option Nat) (n : Nat) (before rest : List ObjId) (visit : Nat → ObjId → Script)
    (next : List ObjId → Script) (pending : List Pending) (s : Stage) : Scene :=
  match rest with
  | [] => ⟨next before, pending, s.endWalk hook⟩
  | id :: rest =>
    if s.machine.heap.isDead id then atObject hook n before rest visit next pending s
    else
      ⟨s.memory.callback .object hook (visit n id) stray,
        .object hook n id before rest visit next :: pending, s⟩

def resume (o : Outcome) (s : Stage) : List Pending → Option Scene
  | [] => none
  | .call depth next :: rest =>
    (s.surface o).map fun (r, s) => ⟨next r, rest, s.onMachine (·.unwound depth)⟩
  | .shield depth next :: rest =>
    (s.surface o).map fun (r, s) => ⟨next r, rest, s.onMachine (Stage.unshield depth r)⟩
  | .host discipline next :: rest =>
    (s.handOn discipline o).map fun (v, s) => ⟨next v, rest, s⟩
  | .entry hook hash removing position n visit next :: rest =>
    (s.surface o).map fun (r, s) =>
      match WalkStatus.ofResult r with
      | .next => atEntry hook hash removing (position + 1) (n + 1) visit next rest s
      | .remove =>
        if removing then
          atEntry hook hash removing position (n + 1) visit next rest
            (s.onMachine (·.removeEntry hash position))
        else atEntry hook hash removing (position + 1) (n + 1) visit next rest s
      | .stop => ⟨next (.ok (n + 1)), rest, s.endWalk hook⟩
  | .object hook n id before rest visit next :: pending =>
    (s.surface o).map fun (r, s) =>
      match WalkStatus.ofResult r with
      | .next => atObject hook (n + 1) (before ++ [id]) rest visit next pending s
      | _ => ⟨next (before ++ [id]), pending, s.endWalk hook⟩

def entering (begin : Act Script) (next : Except Raised Value → Script) (pending : List Pending)
    (s : Stage) : Option Scene :=
  (s.act begin).map fun
    | (.error e, s) => ⟨next (.error e), pending, s⟩
    | (.ok code, s') => ⟨code, .call s.machine.depth next :: pending, s'⟩

/-- The next scene, unless all is done or an action goes on for ever. -/
def step : Scene → Option Scene
  | ⟨.done o, pending, s⟩ => resume o s pending
  | ⟨.guest r next, pending, s⟩ => (s.ask (Act.answer r)).map fun (x, s) => ⟨next x, pending, s⟩
  | ⟨.bridge r next, pending, s⟩ =>
    (s.askBridge (Bridge.answer r)).map fun (x, s) => ⟨next x, pending, s⟩
  | ⟨.memo r next, pending, s⟩ => some ⟨next (s.askMemory r).1, pending, (s.askMemory r).2⟩
  | ⟨.call receiver mid args block next, pending, s⟩ =>
    entering (Act.enterMethod receiver mid args block) next pending s
  | ⟨.callProc proc self args next, pending, s⟩ =>
    entering (Act.enterProc proc self args) next pending s
  | ⟨.protect body next, pending, s⟩ =>
    some ⟨body, .shield s.machine.depth next :: pending, s.onMachine Stage.shield⟩
  | ⟨.newNative body next, pending, s⟩ =>
    (s.ask (Act.newNative body)).map fun (id, s) => ⟨next id, pending, s⟩
  | ⟨.newLexical body next, pending, s⟩ =>
    (s.ask (Act.newLexical body)).map fun (id, s) => ⟨next id, pending, s⟩
  | ⟨.register index form discipline body aspec next, pending, s⟩ =>
    let made := s.bridge.tables.register index ⟨form, discipline, body⟩ aspec
    some ⟨next made.1, pending, { s with bridge := { s.bridge with tables := made.2 } }⟩
  | ⟨.hostCall form index receiver function args next, pending, s⟩ =>
    (s.ask (Act.resolveCall (s.bridge.tables.lookup index function) form function args)).map fun
      | (.error v, s) => ⟨next v, pending, s⟩
      | (.ok c, s) =>
        ⟨c.body ⟨index, receiver, function⟩ args, .host c.discipline next :: pending, s⟩
  | ⟨.walkHash route hash visit next, pending, s⟩ =>
    let hook := (s.hook route .hash).1
    ((s.hook route .hash).2.act (Act.expectType hash .hash)).map fun
      | (.error e, s) => ⟨next (.error e), pending, s.onMemory (·.unhook hook)⟩
      | (.ok _, s) =>
        atEntry hook hash (!s.machine.isFrozen hash) 0 0 visit next pending
          (s.onMachine Machine.beginWalk)
  | ⟨.walkHeap route visit next, pending, s⟩ =>
    let (hook, s) := s.hook route .object
    some (atObject hook 0 [] s.machine.heap.liveIds visit next pending
      (s.onMachine Machine.beginWalk))

abbrev Steps : Scene → Scene → Prop := Relation.ReflTransGen fun a b => a.step = some b

/-- Steps during which `outer` goes on waiting. -/
abbrev StepsOver (outer : List Pending) : Scene → Scene → Prop :=
  Relation.ReflTransGen fun a b => a.step = some b ∧ outer <:+ b.pending

namespace StepsOver

variable {outer outer' : List Pending} {a b : Scene}

theorem weaken (steps : StepsOver outer a b) (below : outer' <:+ outer) : StepsOver outer' a b :=
  Relation.ReflTransGen.mono (fun _ _ both => ⟨both.1, below.trans both.2⟩) a b steps

theorem steps (steps : StepsOver outer a b) : Steps a b :=
  Relation.ReflTransGen.mono (fun _ _ both => both.1) a b steps

theorem of_steps (steps : Steps a b) : StepsOver [] a b :=
  Relation.ReflTransGen.mono (fun _ _ stepped => ⟨stepped, List.nil_suffix⟩) a b steps

end StepsOver

/-- A scene leads to at most one that has no next. -/
theorem steps_unique {a b c : Scene} (first : Steps a b) (ended : b.step = none) (second : Steps a c)
    (halted : c.step = none) : b = c := by
  have unique : Relator.RightUnique fun a b : Scene => a.step = some b :=
    fun _ _ _ one other => Option.some.inj (one.symm.trans other)
  rcases Relation.ReflTransGen.total_of_right_unique unique first second with onward | onward
  · rcases onward.cases_head with same | ⟨x, stepped, -⟩
    · exact same
    · cases ended.symm.trans stepped
  · rcases onward.cases_head with same | ⟨x, stepped, -⟩
    · exact same.symm
    · cases halted.symm.trans stepped

/-! ## Grants -/

def shieldGrant : Outcome → Grant
  | .value _ => {}
  | .raised e => { ids := Value.objects [e.value], clears := true }
  | .failed _ => { clears := true }

/-- Whether a visit that ends so has the visited entry taken out, where entries may be. -/
def removes : Outcome → Bool
  | .value v => WalkStatus.ofResult (.ok v) = .remove
  | _ => false

def visitGrant (hash : Value) (removing : Bool) (position : Nat) (o : Outcome) : Grant where
  drops := if removing && removes o then hash.asObj else none
  walk := if removing && removes o then some position else none

def grant (scene : Scene) : Grant :=
  match scene.script, scene.pending with
  | .done o, .shield _ _ :: _ => shieldGrant o
  | .done o, .entry _ hash removing position _ _ _ :: _ => visitGrant hash removing position o
  | .guest r _, _ => r.grant
  | .bridge r _, _ => r.grant
  | .call receiver _ args block _, _ => { ids := Value.objects (receiver :: block :: args) }
  | .callProc proc self args _, _ => { ids := Value.objects (proc :: self :: args) }
  | _, _ => {}

/-- The step is no edit of an object through a reference that the host was given to it. -/
abbrev Lawful (scene : Scene) : Prop := scene.grant.edits = none

/-- Steps none of which is an edit. -/
abbrev LawfulSteps : Scene → Scene → Prop :=
  Relation.ReflTransGen fun a b => a.Lawful ∧ a.step = some b

namespace LawfulSteps

variable {a b : Scene}

theorem steps (steps : LawfulSteps a b) : Steps a b :=
  Relation.ReflTransGen.mono (fun _ _ both => both.2) a b steps

theorem of_steps (steps : Steps a b) (lawful : ∀ x, Steps a x → x.Lawful) : LawfulSteps a b := by
  induction steps with
  | refl => exact .refl
  | tail earlier stepped ih => exact ih.tail ⟨lawful _ earlier, stepped⟩

end LawfulSteps

/-- What some steps of a scene come to, if each is taken from a scene of a kind. -/
def replay (kind : Scene → Prop) [DecidablePred kind] : Nat → Scene → Option Scene
  | 0, a => some a
  | n + 1, a => if kind a then a.step.bind (replay kind n) else none

theorem steps_of_replay {kind : Scene → Prop} [DecidablePred kind] {a b : Scene} {n : Nat}
    (replayed : replay kind n a = some b) :
    Relation.ReflTransGen (fun a b => kind a ∧ a.step = some b) a b := by
  induction n generalizing a with
  | zero =>
      cases replayed
      exact .refl
  | succ n ih =>
      rw [replay] at replayed
      split at replayed
      case isTrue is =>
          obtain ⟨c, stepped, rest⟩ := Option.bind_eq_some_iff.mp replayed
          exact .head ⟨is, stepped⟩ (ih rest)
      case isFalse => cases replayed

/-- Whether a scene can take its step where no hash but a given one loses entries. -/
def Drops (scene : Scene) (d : Option ObjId) : Prop :=
  match scene.script with
  | .guest r _ => r.Drops d
  | .bridge r _ => r.Drops d
  | .done _ => scene.grant.drops = none ∨ scene.grant.drops = d
  | _ => True

theorem drops_grant (scene : Scene) : scene.Drops scene.grant.drops := by
  obtain ⟨script, pending, s⟩ := scene
  cases script with
  | guest r next => exact r.drops_grant
  | bridge r next => exact r.drops_grant
  | done o => exact .inr rfl
  | _ => trivial

end Scene

/-! ## Steps are evolutions -/

namespace Stage

variable {α : Type} {g : Grant} {s s' : Stage}

/-- What an operation of a stage does is what its action does to the machine. -/
theorem run_of_act {a : Act α} {r : Except Raised α} (acted : s.act a = some (r, s')) :
    s' = { s with machine := s'.machine } ∧
      a.run.run s.machine = (r.mapError .raised, s'.machine) := by
  unfold act at acted
  split at acted
  case h_1 x m ran =>
      cases acted
      exact ⟨rfl, ran⟩
  case h_2 e m ran =>
      cases acted
      exact ⟨rfl, ran⟩
  case h_3 => cases acted

theorem act_evolution {a : Act α} {post : α → Machine → Prop} {r : Except Raised α}
    (does : Act.Does g a s.machine post) (tidy : s.machine.heap.Tidy)
    (acted : s.act a = some (r, s')) :
    Evolution g s.machine s'.machine ∧ s'.bridge = s.bridge ∧ s'.memory = s.memory ∧
      match r with
      | .ok x => post x s'.machine
      | .error e => s'.machine.Carries e := by
  obtain ⟨same, run⟩ := run_of_act acted
  have ran := does tidy
  rw [run] at ran
  have bridge := congrArg Stage.bridge same
  have memory := congrArg Stage.memory same
  cases r <;> exact ⟨ran.1, bridge, memory, ran.2⟩

theorem ask_eq_some {a : Act α} {x : α} :
    s.ask a = some (x, s') ↔ s.act a = some (.ok x, s') := by
  unfold ask
  split
  case h_1 found => simp [found]
  case h_2 other =>
      constructor
      · intro none
        cases none
      · intro found
        exact absurd found (other x s')

theorem ask_evolution {a : Act α} {post : α → Machine → Prop} {x : α}
    (does : Act.Does g a s.machine post) (tidy : s.machine.heap.Tidy)
    (asked : s.ask a = some (x, s')) :
    Evolution g s.machine s'.machine ∧ s'.bridge = s.bridge ∧ s'.memory = s.memory ∧
      post x s'.machine :=
  act_evolution does tidy (ask_eq_some.mp asked)

theorem surface_evolution {o : Outcome} {r : Except Raised Value} (tidy : s.machine.heap.Tidy)
    (surfaced : s.surface o = some (r, s')) :
    Evolution g s.machine s'.machine ∧ s'.bridge = s.bridge ∧ s'.memory = s.memory ∧
      match o with
      | .value v => r = .ok v ∧ s' = s
      | .raised e => r = .error e ∧ s' = s
      | .failed _ => ∃ e, r = .error e ∧ s'.machine.Carries e := by
  cases o with
  | value v =>
      cases surfaced
      exact ⟨.refl, rfl, rfl, rfl, rfl⟩
  | raised e =>
      cases surfaced
      exact ⟨.refl, rfl, rfl, rfl, rfl⟩
  | failed e =>
      obtain ⟨⟨raised, after⟩, asked, same⟩ := Option.map_eq_some_iff.mp surfaced
      cases same
      obtain ⟨evolution, bridge, memory, carried⟩ :=
        ask_evolution (Act.does_raise e.text (.builtin .runtimeError)) tidy asked
      exact ⟨evolution, bridge, memory, raised, rfl, carried⟩

theorem handOn_evolution {d : Discipline} {o : Outcome} {v : Value} (tidy : s.machine.heap.Tidy)
    (handed : s.handOn d o = some (v, s')) :
    Evolution g s.machine s'.machine ∧ s'.bridge = s.bridge ∧ s'.memory = s.memory := by
  have raising : ∀ e, s.ask (Act.raiseError e) = some (v, s') →
      Evolution g s.machine s'.machine ∧ s'.bridge = s.bridge ∧ s'.memory = s.memory := by
    intro e asked
    obtain ⟨evolution, bridge, memory, -⟩ := ask_evolution (Act.does_raiseError e) tidy asked
    exact ⟨evolution, bridge, memory⟩
  cases o with
  | value v =>
      cases handed
      exact ⟨.refl, rfl, rfl⟩
  | raised e =>
      cases d with
      | direct =>
          cases handed
          exact ⟨.refl, rfl, rfl⟩
      | fallible => exact raising _ handed
  | failed e => exact raising _ handed

end Stage

namespace Evolution

variable {g : Grant} {m : Machine}

theorem unwound (depth : Nat) : Evolution g m (m.unwound depth) := .single (.unwind depth)

theorem shield : Evolution g m (Stage.shield m) := .single (.setProtectDepth _)

theorem beginWalk : Evolution g m m.beginWalk := .single (.setWalks _)

theorem endWalk : Evolution g m m.endWalk := .single (.setWalks _)

theorem removeEntry {hash : Value} {position : Nat}
    (may : hash.asObj = none ∨ g.drops = hash.asObj) (walking : g.walk = some position) :
    Evolution g m (m.removeEntry hash position) := by
  unfold Machine.removeEntry
  cases named : hash.asObj with
  | none => exact .refl
  | some id =>
      refine .modify id _ fun o _ => ?_
      obtain ⟨cls, frozen, ivars, body⟩ := o
      cases body with
      | hash t =>
          have drops : g.drops = some id := by simpa [named] using may
          refine .inr ⟨.removal t position rfl drops walking, fun x member => ?_⟩
          rcases Object.mem_references_withBody member with old | new
          · exact .inl old
          · exact .inl (Object.mem_references_of_body (HashTable.mem_references_removeAt new))
      | _ => exact .inl rfl

/-- The end of a protected region clears the current exception only after an exception. -/
theorem unshield (depth : Nat) (r : Except Raised Value)
    (may : ∀ e, r = .error e → g.clears = true)
    (known : ∀ e x, r = .error e → e.value = .obj x → x ∈ g.ids ∨ m.Live x) :
    Evolution g m (Stage.unshield depth r m) := by
  have lowered : Evolution g m { m with protectDepth := m.protectDepth - 1 } :=
    .single (.setProtectDepth _)
  cases r with
  | ok v => exact lowered
  | error e =>
      have cleared := (lowered.tail (.unwind depth)).tail (.clear (may e rfl))
      simp only [Stage.unshield]
      cases value : e.value with
      | obj id =>
          refine cleared.tail (.pushArena id ?_)
          rcases known e id rfl value with handed | live
          · exact .handed handed
          · exact .alive live
      | _ => exact cleared

end Evolution

/-! ## What steps do to the bridge -/

def Script.effect (script : Script) (h : Handle) (b : Bridge) : Bridge :=
  match script with
  | .bridge r _ => r.effect h b
  | .register index form discipline body aspec _ =>
    { b with tables := (b.tables.register index ⟨form, discipline, body⟩ aspec).2 }
  | _ => b

namespace Stage

variable {s s' : Stage}

theorem askBridge_evolution {a : Answer} {r : BridgeRequest a} {x : a.Carrier} {d : Option ObjId}
    (may : r.Drops d) (tidy : s.machine.heap.Tidy)
    (asked : s.askBridge (Bridge.answer r) = some (x, s')) :
    Evolution { r.grant with drops := d } s.machine s'.machine ∧
      s'.bridge = r.effect s.machine.handle s.bridge ∧ s'.memory = s.memory := by
  unfold askBridge at asked
  split at asked
  case h_1 y bridge after found =>
      cases asked
      obtain ⟨evolution, -, memory, (effect : bridge = _)⟩ :=
        ask_evolution (Bridge.does_answer_dropping r may) tidy found
      exact ⟨evolution, effect, memory⟩
  case h_2 => cases asked

end Stage

namespace Scene

variable {a b : Scene}

theorem atEntry_evolution {g : Grant} {m : Machine} {before : Bridge} {s : Stage}
    (hook : Option Nat) (hash : Value) (removing : Bool) (position n : Nat)
    (visit : Nat → Value → Value → Script) (next : Except Raised Nat → Script) (pending : List Pending)
    (evolution : Evolution g m s.machine) (bridge : s.bridge = before) :
    let b := atEntry hook hash removing position n visit next pending s
    Evolution g m b.stage.machine ∧ b.stage.bridge = before := by
  unfold atEntry
  split
  · exact ⟨evolution.trans Evolution.endWalk, bridge⟩
  · exact ⟨evolution, bridge⟩

theorem atObject_evolution {g : Grant} {m : Machine} {before : Bridge} {s : Stage}
    (hook : Option Nat) (n : Nat) (visited rest : List ObjId) (visit : Nat → ObjId → Script)
    (next : List ObjId → Script) (pending : List Pending) (evolution : Evolution g m s.machine)
    (bridge : s.bridge = before) :
    let b := atObject hook n visited rest visit next pending s
    Evolution g m b.stage.machine ∧ b.stage.bridge = before := by
  induction rest with
  | nil => exact ⟨evolution.trans Evolution.endWalk, bridge⟩
  | cons id rest ih =>
      rw [atObject]
      split
      · exact ih
      · exact ⟨evolution, bridge⟩

/-- A heap walk goes on with the next object that is live, or is over. -/
theorem atObject_cases (hook : Option Nat) (n : Nat) (visited rest : List ObjId)
    (visit : Nat → ObjId → Script) (next : List ObjId → Script) (pending : List Pending)
    (s : Stage) :
    ((∀ id ∈ rest, s.machine.heap.isDead id) ∧
      atObject hook n visited rest visit next pending s =
        ⟨next visited, pending, s.endWalk hook⟩) ∨
    ∃ id left, id :: left <:+ rest ∧ ¬ s.machine.heap.isDead id ∧
      atObject hook n visited rest visit next pending s =
        ⟨s.memory.callback .object hook (visit n id) stray,
          .object hook n id visited left visit next :: pending, s⟩ := by
  induction rest with
  | nil => exact .inl ⟨fun _ member => absurd member List.not_mem_nil, rfl⟩
  | cons id rest ih =>
      rw [atObject]
      by_cases dead : s.machine.heap.isDead id
      · rw [if_pos dead]
        rcases ih with ⟨all, ended⟩ | ⟨x, left, suffix, live, onward⟩
        · exact .inl ⟨List.forall_mem_cons.mpr ⟨dead, all⟩, ended⟩
        · exact .inr ⟨x, left, suffix.trans (List.suffix_cons id rest), live, onward⟩
      · rw [if_neg dead]
        exact .inr ⟨id, rest, List.suffix_rfl, dead, rfl⟩

theorem entering_evolution {g : Grant} {begin : Act Script} {next : Except Raised Value → Script}
    {pending : List Pending} {s : Stage}
    (does : Act.Does g begin s.machine fun _ _ => True) (tidy : s.machine.heap.Tidy)
    (entered : entering begin next pending s = some b) :
    Evolution g s.machine b.stage.machine ∧ b.stage.bridge = s.bridge := by
  obtain ⟨⟨code, after⟩, acted, same⟩ := Option.map_eq_some_iff.mp entered
  obtain ⟨evolution, bridge, -⟩ := Stage.act_evolution does tidy acted
  cases code <;> cases same <;> exact ⟨evolution, bridge⟩

/-- Ending a protected region keeps an object on the arena that the outcome names or that lives. -/
theorem unshield_evolution {o : Outcome} {r : Except Raised Value} {s s' : Stage} {d : Option ObjId}
    (depth : Nat) (tidy : s.machine.heap.Tidy) (surfaced : s.surface o = some (r, s')) :
    Evolution { shieldGrant o with drops := d } s.machine (Stage.unshield depth r s'.machine) := by
  obtain ⟨evolution, -, -, ended⟩ := Stage.surface_evolution tidy surfaced
  refine evolution.trans (Evolution.unshield depth r ?_ ?_)
  · intro e same
    subst same
    cases o with
    | value v => cases ended.1
    | raised e | failed e => rfl
  · intro e x same value
    subst same
    cases o with
    | value v => cases ended.1
    | raised e' =>
        obtain ⟨same, rfl⟩ := ended
        cases same
        exact .inl (Value.mem_objects.mpr (by simp [value]))
    | failed e' =>
        obtain ⟨e'', same, id, p, value', -, live, -⟩ := ended
        cases same
        rw [value] at value'
        cases value'
        exact .inr (.of_object? live)

/-- Only a visit that ends normally has its entry taken out. -/
theorem removes_of_surface {o : Outcome} {r : Except Raised Value} {s s' : Stage}
    (surfaced : s.surface o = some (r, s')) (status : WalkStatus.ofResult r = .remove) :
    removes o = true := by
  cases o with
  | value v =>
      cases surfaced
      exact decide_eq_true status
  | raised e =>
      cases surfaced
      cases status
  | failed e =>
      obtain ⟨⟨e', after⟩, -, same⟩ := Option.map_eq_some_iff.mp surfaced
      cases same
      cases status

theorem resume_evolution {o : Outcome} {s : Stage} {pending : List Pending} {d : Option ObjId}
    (may : Drops ⟨.done o, pending, s⟩ d) (tidy : s.machine.heap.Tidy)
    (resumed : resume o s pending = some b) :
    Evolution { grant ⟨.done o, pending, s⟩ with drops := d } s.machine b.stage.machine ∧
      b.stage.bridge = s.bridge := by
  cases pending with
  | nil => cases resumed
  | cons first rest =>
      cases first with
      | call depth next =>
          obtain ⟨⟨r, after⟩, surfaced, rfl⟩ := Option.map_eq_some_iff.mp resumed
          obtain ⟨evolution, bridge, -⟩ := Stage.surface_evolution tidy surfaced
          exact ⟨evolution.trans (Evolution.unwound depth), bridge⟩
      | shield depth next =>
          obtain ⟨⟨r, after⟩, surfaced, rfl⟩ := Option.map_eq_some_iff.mp resumed
          obtain ⟨-, bridge, -⟩ := Stage.surface_evolution (g := {}) tidy surfaced
          exact ⟨unshield_evolution depth tidy surfaced, bridge⟩
      | host discipline next =>
          obtain ⟨⟨v, after⟩, handed, rfl⟩ := Option.map_eq_some_iff.mp resumed
          obtain ⟨evolution, bridge, -⟩ := Stage.handOn_evolution tidy handed
          exact ⟨evolution, bridge⟩
      | entry hook hash removing position n visit next =>
          obtain ⟨⟨r, after⟩, surfaced, rfl⟩ := Option.map_eq_some_iff.mp resumed
          obtain ⟨evolution, bridge, -⟩ := Stage.surface_evolution tidy surfaced
          have visiting := atEntry_evolution hook hash removing (position + 1) (n + 1) visit next rest
            evolution bridge
          dsimp only
          split
          · exact visiting
          case h_2 status =>
            split
            case isTrue taking =>
              have granted :
                  grant ⟨.done o, .entry hook hash removing position n visit next :: rest, s⟩ =
                    { drops := hash.asObj, walk := some position } := by
                simp [grant, visitGrant, removes_of_surface surfaced status, taking]
              have drops : hash.asObj = none ∨ d = hash.asObj := by
                simpa only [Drops, granted, eq_comm] using may
              rw [granted] at evolution ⊢
              exact atEntry_evolution hook hash removing position (n + 1) visit next rest
                (evolution.trans (Evolution.removeEntry drops rfl)) bridge
            case isFalse => exact visiting
          · exact ⟨evolution.trans Evolution.endWalk, bridge⟩
      | object hook n id before remaining visit next =>
          obtain ⟨⟨r, after⟩, surfaced, rfl⟩ := Option.map_eq_some_iff.mp resumed
          obtain ⟨evolution, bridge, -⟩ := Stage.surface_evolution tidy surfaced
          dsimp only
          split
          · exact atObject_evolution hook (n + 1) (before ++ [id]) remaining visit next rest evolution
              bridge
          · exact ⟨evolution.trans Evolution.endWalk, bridge⟩

/-- A step is an evolution under its grant also where the hash that may lose entries is another one, as
far as the step can be taken there. -/
theorem step_evolution_dropping {d : Option ObjId} (may : a.Drops d) (stepped : a.step = some b)
    (tidy : a.stage.machine.heap.Tidy) :
    Evolution { a.grant with drops := d } a.stage.machine b.stage.machine ∧
      b.stage.bridge = a.script.effect a.stage.machine.handle a.stage.bridge := by
  obtain ⟨script, pending, s⟩ := a
  cases script with
  | guest r next =>
      obtain ⟨⟨x, after⟩, asked, rfl⟩ := Option.map_eq_some_iff.mp stepped
      obtain ⟨evolution, bridge, -⟩ := Stage.ask_evolution (Act.does_answer_dropping r may) tidy asked
      exact ⟨evolution, bridge⟩
  | bridge r next =>
      obtain ⟨⟨x, after⟩, asked, rfl⟩ := Option.map_eq_some_iff.mp stepped
      obtain ⟨evolution, bridge, -⟩ := Stage.askBridge_evolution may tidy asked
      exact ⟨evolution, bridge⟩
  | memo r next =>
      cases stepped
      exact ⟨.refl, rfl⟩
  | call receiver mid args block next =>
      exact entering_evolution (Act.does_enterMethod mid fun _ member => member) tidy stepped
  | callProc proc self args next =>
      exact entering_evolution (Act.does_enterProc fun _ member => member) tidy stepped
  | protect body next =>
      cases stepped
      exact ⟨.shield, rfl⟩
  | newNative body next | newLexical body next =>
      simp only [step] at stepped
      obtain ⟨⟨id, after⟩, asked, rfl⟩ := Option.map_eq_some_iff.mp stepped
      obtain ⟨evolution, bridge, -⟩ := Stage.ask_evolution (Act.does_procNew _ _) tidy asked
      exact ⟨evolution, bridge⟩
  | register index form discipline body aspec next =>
      cases stepped
      exact ⟨.refl, rfl⟩
  | hostCall form index receiver function args next =>
      obtain ⟨⟨resolved, after⟩, asked, same⟩ := Option.map_eq_some_iff.mp stepped
      obtain ⟨evolution, bridge, -⟩ := Stage.ask_evolution (Act.does_resolveCall _ _ _ _) tidy asked
      cases resolved <;> cases same <;> exact ⟨evolution, bridge⟩
  | walkHash route hash visit next =>
      obtain ⟨⟨checked, after⟩, acted, same⟩ := Option.map_eq_some_iff.mp stepped
      have tidy' : (s.hook route .hash).2.machine.heap.Tidy := tidy
      obtain ⟨evolution, bridge, -⟩ := Stage.act_evolution (Act.does_expectType _ _) tidy' acted
      cases checked with
      | error e =>
          cases same
          exact ⟨evolution, bridge⟩
      | ok id =>
          cases same
          exact atEntry_evolution _ hash _ 0 0 visit next pending
            (evolution.trans Evolution.beginWalk) bridge
  | walkHeap route visit next =>
      cases stepped
      exact atObject_evolution _ 0 [] s.machine.heap.liveIds visit next pending
        Evolution.beginWalk rfl
  | done o => exact resume_evolution may tidy stepped

/-- A step is an evolution of the machine under the grant of the scene, and changes the bridge by
what the scene asks of it. -/
theorem step_evolution (stepped : a.step = some b) (tidy : a.stage.machine.heap.Tidy) :
    Evolution a.grant a.stage.machine b.stage.machine ∧
      b.stage.bridge = a.script.effect a.stage.machine.handle a.stage.bridge :=
  step_evolution_dropping a.drops_grant stepped tidy

end Scene

end GuestVM
