import GuestVM.Proofs.Balance
import GuestVM.Proofs.Scene.Hooks

/-! # Visits

A walk is set off, makes one visit after another, and is over.  While it is under way one entry waits
for the visit, and what waited before the walk, `outer`, waits below it.  `Visits` lists the visits that
a walk has made; every run from the beginning of a walk on splits into the visits that are over and what
came after the last of them (`visits_of_run`).  What the list looks like depends on what is walked.

The machine counts the walks that wait, also where scripts come one after another (`Counts`). -/
set_option autoImplicit false

namespace GuestVM

namespace Stacked

variable {base : Machine} {outer pending : List Pending} {frames : List Frame} {regions walks : Nat}

theorem le_walks (stacked : Stacked base outer pending frames regions walks) :
    base.heap.walks ≤ walks := by
  induction stacked with
  | base => exact Nat.le_refl _
  | walk walk is below ih => omega
  | _ => assumption

theorem walks_lt_iff (stacked : Stacked base [] pending frames regions walks) :
    base.heap.walks < walks ↔ ∃ p ∈ pending, p.Walks := by
  induction stacked with
  | base => simp
  | walk walk is below ih =>
      have least := below.le_walks
      exact ⟨fun _ => ⟨walk, List.mem_cons_self .., is⟩, fun _ => by omega⟩
  | call f next below ih => simpa [Pending.Walks] using ih
  | shield next below ih => simpa [Pending.Walks] using ih
  | host discipline next below ih => simpa [Pending.Walks] using ih

end Stacked

namespace Scene

variable {a b : Scene} {p : Pending} {outer : List Pending}

theorem pending_ne {script : Script} {s : Stage} (same : ⟨script, p :: outer, s⟩ = a) :
    a.pending ≠ outer := by
  subst same
  exact List.cons_ne_self _ _

/-- What waits goes on waiting until the code that it waits for has ended. -/
theorem step_leaves (stepped : a.step = some b) (tidy : a.stage.machine.heap.Tidy)
    (inside : p :: outer <:+ a.pending) :
    p :: outer <:+ b.pending ∨ ∃ o, a.script = .done o ∧ a.pending = p :: outer := by
  have popped : ∀ {o : Outcome} {q : Pending} {rest : List Pending}, a.script = .done o →
      a.pending = q :: rest → rest <:+ b.pending →
      p :: outer <:+ b.pending ∨ ∃ o, a.script = .done o ∧ a.pending = p :: outer := by
    intro o q rest script pending below
    rw [pending] at inside
    rcases List.suffix_cons_iff.mp inside with whole | within
    · exact .inr ⟨o, script, pending.trans whole.symm⟩
    · exact .inl (within.trans below)
  cases turn_of_step stepped tidy with
  | acts did pending => exact .inl (pending ▸ inside)
  | cuts mark next script machine pending => exact .inl (pending ▸ inside)
  | clears next script machine pending => exact .inl (pending ▸ inside)
  | enters f m next did machine pending =>
      exact .inl (pending ▸ inside.trans (List.suffix_cons _ _))
  | shields next machine pending => exact .inl (pending ▸ inside.trans (List.suffix_cons _ _))
  | hosts discipline next did pending =>
      exact .inl (pending ▸ inside.trans (List.suffix_cons _ _))
  | setsOff walk m did machine pending =>
      exact .inl (pending ▸ inside.trans (List.suffix_cons _ _))
  | returns depth next o m did script machine pending => exact popped script pending List.suffix_rfl
  | unshields depth next o r m did script passed machine pending =>
      exact popped script pending List.suffix_rfl
  | handsOn discipline next o did script pending => exact popped script pending List.suffix_rfl
  | visits walk onward rest o did script pending after =>
      exact popped script pending (after ▸ List.suffix_cons _ _)
  | arrives walk o m did script machine pending => exact popped script pending List.suffix_rfl

/-- While a walk is under way a step collects nothing: it is an evolution or changes nothing at all. -/
theorem step_walking (stepped : a.step = some b) (tidy : a.stage.machine.heap.Tidy)
    (walking : a.stage.machine.heap.walks ≠ 0) :
    (a.grant.sweeps = false ∧ Evolution a.grant a.stage.machine b.stage.machine) ∨
      b.stage.machine = a.stage.machine := by
  have suspended : a.stage.machine.heap.isSuspended = true := by simp [Heap.isSuspended, walking]
  rcases step_sort stepped tidy with evolved | collected
  · exact .inl evolved
  · rw [collected, Heap.collect_of_suspended suspended]
    exact .inr rfl

/-- When a visit ends it no longer waits. -/
theorem step_popped {o : Outcome} {walk : Pending} {s : Stage} (walks : walk.Walks)
    (stepped : step ⟨.done o, walk :: outer, s⟩ = some b) : ¬ walk :: outer <:+ b.pending := by
  have apart : ∀ {other}, walk ≠ other → ¬ walk :: outer <:+ other :: outer := fun differ inside =>
    differ (List.cons.inj (inside.eq_of_length rfl)).1
  cases walk with
  | entry hook hash removing position n visit next =>
      obtain ⟨⟨r, t⟩, surfaced, rfl⟩ := Option.map_eq_some_iff.mp stepped
      have onward : ∀ p u, ¬ Pending.entry hook hash removing position n visit next :: outer <:+
          (atEntry hook hash removing p (n + 1) visit next outer u).pending := by
        intro p u
        unfold atEntry
        split
        · exact Pending.not_cons_suffix
        · exact apart (by simp)
      dsimp only
      split
      · exact onward _ _
      · split <;> exact onward _ _
      · exact Pending.not_cons_suffix
  | object hook n id before rest visit next =>
      obtain ⟨⟨r, t⟩, surfaced, rfl⟩ := Option.map_eq_some_iff.mp stepped
      dsimp only
      split
      · rcases atObject_cases hook (n + 1) (before ++ [id]) rest visit next outer t with
          ⟨-, ended⟩ | ⟨x, left, -, -, onward⟩
        · rw [ended]
          exact Pending.not_cons_suffix
        · rw [onward]
          exact apart (by simp)
      · exact Pending.not_cons_suffix
  | _ => exact walks.elim

/-- A walk goes on with a visit or is over. -/
def Walking (b : Scene) (outer : List Pending) : Prop :=
  b.pending = outer ∨ ∃ walk, walk.Walks ∧ b.pending = walk :: outer

theorem walking_atEntry (hook : Option Nat) (hash : Value) (removing : Bool) (position n : Nat)
    (visit : Nat → Value → Value → Script) (next : Except Raised Nat → Script) (s : Stage) :
    (atEntry hook hash removing position n visit next outer s).Walking outer := by
  unfold atEntry
  split
  · exact .inl rfl
  · exact .inr ⟨.entry hook hash removing position n visit next, trivial, rfl⟩

theorem walking_atObject (hook : Option Nat) (n : Nat) (before rest : List ObjId)
    (visit : Nat → ObjId → Script) (next : List ObjId → Script) (s : Stage) :
    (atObject hook n before rest visit next outer s).Walking outer := by
  rcases atObject_cases hook n before rest visit next outer s with
    ⟨-, ended⟩ | ⟨x, left, -, -, onward⟩
  · rw [ended]
    exact .inl rfl
  · rw [onward]
    exact .inr ⟨.object hook n x before left visit next, trivial, rfl⟩

/-- A visit that ends has a result, and then its walk goes on. -/
theorem step_visited {o : Outcome} {walk : Pending} {s : Stage} (walks : walk.Walks)
    (stepped : step ⟨.done o, walk :: outer, s⟩ = some b) :
    (∃ r t, s.surface o = some (r, t)) ∧ b.Walking outer := by
  cases walk with
  | entry hook hash removing position n visit next =>
      obtain ⟨⟨r, t⟩, surfaced, rfl⟩ := Option.map_eq_some_iff.mp stepped
      refine ⟨⟨r, t, surfaced⟩, ?_⟩
      dsimp only
      split
      · exact walking_atEntry ..
      · split <;> exact walking_atEntry ..
      · exact .inl rfl
  | object hook n id before rest visit next =>
      obtain ⟨⟨r, t⟩, surfaced, rfl⟩ := Option.map_eq_some_iff.mp stepped
      refine ⟨⟨r, t, surfaced⟩, ?_⟩
      dsimp only
      split
      · exact walking_atObject ..
      · exact .inl rfl
  | _ => exact walks.elim

end Scene

namespace Situation

attribute [local irreducible] Machine.opened

variable {now later begun : Situation} {move : Move} {name : String} {i : Instance} {a b : Scene}
  {allowed : Situation → Move → Prop} {outer : List Pending}
  {done : List (Script × WalkStatus)}

/-! ## The visits of a walk -/

/-- Moves of an allowed kind while some go on waiting. -/
def Under (allowed : Situation → Move → Prop) (name : String) (waiting : List Pending)
    (now : Situation) (move : Move) : Prop := allowed now move ∧ Inside name waiting now

/-- The visits that a walk has made since it began, each with the script that ran and the status that
it ended with. -/
inductive Visits (allowed : Situation → Move → Prop) (name : String) (outer : List Pending)
    (begun : Situation) : List (Script × WalkStatus) → Situation → Prop
  | none : Visits allowed name outer begun [] begun
  | visit {done : List (Script × WalkStatus)} {now ended after : Situation} {walk : Pending}
      {script : Script} {s t u : Stage} {o : Outcome} {r : Except Raised Value}
      (before : Visits allowed name outer begun done now)
      (starts : now.scene? name = some ⟨script, walk :: outer, s⟩) (walks : walk.Walks)
      (runs : Run (Under allowed name (walk :: outer)) now ended)
      (ends : ended.scene? name = some ⟨.done o, walk :: outer, t⟩)
      (told : t.surface o = some (r, u)) (goes : Next ended (.act name) after) :
      Visits allowed name outer begun (done ++ [(script, .ofResult r)]) after

/-- The visits so far were those of the first items on a list, and all but the last of them asked to
go on. -/
structure Passed {α : Type} (goes : WalkStatus → Prop) (items : List α) (visit : Nat → α → Script)
    (done : List (Script × WalkStatus)) : Prop where
  scripts : done.map (·.1) = (items.take done.length).mapIdx visit
  went : ∀ e ∈ done.dropLast, goes e.2

section Passed

variable {α : Type} {goes : WalkStatus → Prop} {items : List α} {visit : Nat → α → Script}

theorem Passed.length_le (passed : Passed goes items visit done) : done.length ≤ items.length := by
  have lengths := congrArg List.length passed.scripts
  simp only [List.length_map, List.length_mapIdx, List.length_take] at lengths
  omega

theorem Passed.concat {x : α} {status : WalkStatus} (passed : Passed goes items visit done)
    (went : ∀ e ∈ done, goes e.2) (turn : items[done.length]? = some x) :
    Passed goes items visit (done ++ [(visit done.length x, status)]) := by
  have length : (items.take done.length).length = done.length := by
    simp [passed.length_le]
  constructor
  · have one : (done ++ [(visit done.length x, status)]).length = done.length + 1 :=
      List.length_append
    rw [one, List.take_add_one, turn, Option.toList_some, List.mapIdx_concat, length,
      ← passed.scripts, List.map_append]
    rfl
  · rw [List.dropLast_concat]
    exact went

end Passed

/-- What the steps of a machine keep while some wait is kept for as long as they wait. -/
theorem kept_under {P : Machine → Prop}
    (step : ∀ now a b, Run Anything {} now → allowed now (.act name) → now.scene? name = some a →
      a.Lawful → outer <:+ a.pending → a.step = some b → outer <:+ b.pending →
        P a.stage.machine → P b.stage.machine)
    (run : Run Anything {} now) (holds : ∃ i, now.world.instance? name = some i ∧ P i.machine)
    (onward : Run (Under allowed name outer) now later) (still : Inside name outer later) :
    Run Anything {} later ∧ ∃ i, later.world.instance? name = some i ∧ P i.machine := by
  induction onward with
  | refl => exact ⟨run, holds⟩
  | tail _ moved ih =>
      obtain ⟨move, ⟨may, inside⟩, moved⟩ := moved
      obtain ⟨run, i, present, holds⟩ := ih inside
      refine ⟨run.tail ⟨move, trivial, moved⟩, ?_⟩
      obtain ⟨x, shown, waits⟩ := inside
      obtain ⟨b, after, waits'⟩ := still
      obtain ⟨i', present', machine, -⟩ := scene?_eq_some shown
      obtain ⟨j, presentAfter, machine', -⟩ := scene?_eq_some after
      cases present.symm.trans present'
      rw [← machine] at holds
      refine ⟨j, presentAfter, machine' ▸ ?_⟩
      rcases moved.scene shown after with ⟨rfl, stepped⟩ | ⟨-, -, same⟩
      · exact step _ x b run may shown (moved.lawful shown) waits stepped waits' holds
      · rwa [same]

theorem kept_shown {P : Machine → Prop}
    (step : ∀ now a b, Run Anything {} now → allowed now (.act name) → now.scene? name = some a →
      a.Lawful → outer <:+ a.pending → a.step = some b → outer <:+ b.pending →
        P a.stage.machine → P b.stage.machine)
    (run : Run Anything {} now) (shown : now.scene? name = some a) (holds : P a.stage.machine)
    (onward : Run (Under allowed name outer) now later) (after : later.scene? name = some b)
    (waits : outer <:+ b.pending) : Run Anything {} later ∧ P b.stage.machine := by
  obtain ⟨i, present, machine, -⟩ := scene?_eq_some shown
  obtain ⟨run, j, present', holds⟩ :=
    kept_under step run ⟨i, present, machine ▸ holds⟩ onward ⟨b, after, waits⟩
  obtain ⟨j', found, machine', -⟩ := scene?_eq_some after
  cases present'.symm.trans found
  exact ⟨run, machine' ▸ holds⟩

/-- Where a walk has come to: it is over, or a visit is under way. -/
def Stands (allowed : Situation → Move → Prop) (name : String) (outer : List Pending)
    (middle later : Situation) : Prop :=
  ∃ a, middle.scene? name = some a ∧
    ((a.pending = outer ∧ Run (Under allowed name outer) middle later) ∨
      ∃ walk, walk.Walks ∧ a.pending = walk :: outer ∧
        Run (Under allowed name (walk :: outer)) middle later ∧ Inside name (walk :: outer) later)

/-- A run from the beginning of a walk on is the visits of the walk, one after another, and what came
after them. -/
theorem visits_of_run {whatever : Situation → Move → Prop} (run : Run whatever {} begun)
    (shown : begun.scene? name = some a) (walking : a.Walking outer)
    (onward : Run (Under allowed name outer) begun later) (still : Inside name outer later) :
    ∃ done middle, Visits allowed name outer begun done middle ∧
      Stands allowed name outer middle later := by
  induction onward with
  | refl =>
      refine ⟨[], _, .none, a, shown, ?_⟩
      rcases walking with past | ⟨walk, walks, waits⟩
      · exact .inl ⟨past, .refl⟩
      · exact .inr ⟨walk, walks, waits, .refl, a, shown, waits ▸ List.suffix_rfl⟩
  | tail before moved ih =>
      obtain ⟨move, ⟨may, here⟩, moved⟩ := moved
      obtain ⟨done, middle, visits, x, stood, past | ⟨walk, walks, waits, inner, inside⟩⟩ := ih here
      · exact ⟨done, middle, visits, x, stood, .inl ⟨past.1, past.2.tail ⟨move, ⟨may, here⟩, moved⟩⟩⟩
      · obtain ⟨y, found, within⟩ := inside
        obtain ⟨b, after, -⟩ := still
        have inner' := inner.tail ⟨move, ⟨may, y, found, within⟩, moved⟩
        have goesOn : walk :: outer <:+ b.pending → ∃ done middle,
            Visits allowed name outer begun done middle ∧ Stands allowed name outer middle _ :=
          fun same => ⟨done, middle, visits, x, stood,
            .inr ⟨walk, walks, waits, inner', b, after, same⟩⟩
        rcases moved.scene found after with ⟨rfl, stepped⟩ | ⟨-, pending, -⟩
        · have start : Run Anything {} _ :=
            (Run.mono (fun _ _ _ => trivial) run).trans (Run.mono (fun _ _ _ => trivial) before)
          have tidy := tidy_of_shown start found
          rcases Scene.step_leaves stepped tidy within with same | ⟨o, script, pending⟩
          · exact goesOn same
          · obtain ⟨_, _, t⟩ := y
            obtain ⟨_, _, s⟩ := x
            cases script
            cases pending
            cases waits
            obtain ⟨⟨r, u, told⟩, walking⟩ := Scene.step_visited walks stepped
            refine ⟨_, _, .visit visits stood walks inner found told moved, b, after, ?_⟩
            rcases walking with past | ⟨onward, walks', waits'⟩
            · exact .inl ⟨past, .refl⟩
            · exact .inr ⟨onward, walks', waits', .refl, b, after, waits' ▸ List.suffix_rfl⟩
        · exact goesOn (pending ▸ within)

/-! ## Counting walks -/

/-- A machine counts the walks that wait in it, and none while it is idle. -/
def Counts (name : String) (now : Situation) : Prop :=
  match now.world.instance? name, now.plays name with
  | none, p => p = none
  | some i, none => i.machine.heap.walks = 0
  | some i, some p => ∃ base : Machine, base.heap.walks = 0 ∧
      Stacked base [] p.pending i.machine.frames i.machine.protectDepth i.machine.heap.walks

namespace Counts

theorem congr (counts : Counts name now)
    (present : later.world.instance? name = now.world.instance? name)
    (plays : later.plays name = now.plays name) : Counts name later := by
  unfold Counts at counts ⊢
  rw [present, plays]
  exact counts

theorem plays_of_closed (counts : Counts name now) (closed : now.world.instance? name = none) :
    now.plays name = none := by
  unfold Counts at counts
  rw [closed] at counts
  exact counts

theorem of_idle (present : now.world.instance? name = some i) (idle : now.plays name = none)
    (none : i.machine.heap.walks = 0) : Counts name now := by
  unfold Counts
  rw [present, idle]
  exact none

theorem idle (counts : Counts name now) (present : now.world.instance? name = some i)
    (idle : now.plays name = none) : i.machine.heap.walks = 0 := by
  unfold Counts at counts
  rw [present, idle] at counts
  exact counts

theorem of_shown (shown : now.scene? name = some a) {base : Machine} (none : base.heap.walks = 0)
    (above : a.Above base []) : Counts name now := by
  obtain ⟨i, present, machine, -, playing⟩ := scene?_eq_some shown
  unfold Counts
  rw [present, playing]
  rw [Scene.Above, machine] at above
  exact ⟨base, none, above⟩

theorem shown (counts : Counts name now) (shown : now.scene? name = some a) :
    ∃ base : Machine, base.heap.walks = 0 ∧ a.Above base [] := by
  obtain ⟨i, present, machine, -, playing⟩ := scene?_eq_some shown
  unfold Counts at counts
  rw [present, playing] at counts
  obtain ⟨base, none, stacked⟩ := counts
  exact ⟨base, none, by rwa [Scene.Above, machine]⟩

theorem walking_iff (counts : Counts name now) (shown : now.scene? name = some a) :
    a.stage.machine.heap.walks ≠ 0 ↔ ∃ p ∈ a.pending, p.Walks := by
  obtain ⟨base, none, above⟩ := counts.shown shown
  rw [← above.walks_lt_iff, none, Nat.pos_iff_ne_zero]

end Counts

end Situation

theorem Machine.walks_renamed (m : Machine) (h : Handle) (c : Config) :
    (m.renamed h c).heap.walks = m.heap.walks := rfl

/-- In a new machine no walk is under way. -/
theorem Machine.walks_opened (h : Handle) (c : Config) : (opened h c).heap.walks = 0 := by
  rw [opened_eq, walks_renamed]
  decide +kernel

namespace Situation

attribute [local irreducible] Machine.opened

variable {now later : Situation} {move : Move} {name : String} {a : Scene}

theorem counts_next (tidy : ∀ a, now.scene? name = some a → a.stage.machine.heap.Tidy)
    (counts : Counts name now) (moved : Next now move later) : Counts name later := by
  cases moved with
  | openBare opened config can | openLinked opened config can =>
      by_cases same : name = opened
      · subst same
        exact .of_idle (World.instance?_put_self _) (counts.plays_of_closed can.free)
          (Machine.walks_opened _ _)
      · exact counts.congr (World.instance?_put_of_ne _ same) rfl
  | close closed idle =>
      by_cases same : name = closed
      · subst same
        unfold Counts
        rw [World.instance?_close_self]
        exact idle
      · exact counts.congr (World.instance?_close_of_ne same) rfl
  | begin begun script i present idle =>
      by_cases same : name = begun
      · subst same
        let begun : Scene := ⟨script, [], ⟨i.machine, now.world.bridge, { bindings := i.bindings }⟩⟩
        refine .of_shown (a := begun) ?_ (counts.idle present idle) (.refl begun)
        simp only [scene?, present, Function.update_self, begun]
      · exact counts.congr rfl (Function.update_of_ne same _ _)
  | act acting i a b present shown stepped lawful =>
      by_cases same : name = acting
      · subst same
        obtain ⟨base, none, above⟩ := counts.shown shown
        exact .of_shown scene?_showing none
          (Scene.above_step above stepped (tidy a shown) List.nil_suffix)
      · exact counts.congr (World.instance?_put_of_ne _ same) (Function.update_of_ne same _ _)
  | finish finished i o memory present ended =>
      by_cases same : name = finished
      · subst same
        have shown : now.scene? name = some ⟨.done o, [], ⟨i.machine, now.world.bridge, memory⟩⟩ := by
          simp only [scene?, present, ended]
        obtain ⟨base, none, above⟩ := counts.shown shown
        exact .of_idle (World.instance?_put_self _) (Function.update_self _ _ _)
          ((above.sameCalls rfl).walks.trans none)
      · exact counts.congr (World.instance?_put_of_ne _ same) (Function.update_of_ne same _ _)

/-- In every play the live hooks are those of the waiting walks. -/
theorem hooks_of_run {allowed : Situation → Move → Prop} (run : Run allowed {} now) {p : Play}
    (playing : now.plays name = some p) : p.memory.hooks.Await p.pending := by
  induction run generalizing name p with
  | refl => cases playing
  | tail before moved ih =>
      obtain ⟨move, -, moved⟩ := moved
      cases moved with
      | openBare | openLinked | close => exact ih playing
      | begin begun script i present idle =>
          by_cases same : name = begun
          · subst same
            cases (Function.update_self _ _ _).symm.trans playing
            exact ⟨rfl, List.nodup_nil⟩
          · exact ih ((Function.update_of_ne same _ _).symm.trans playing)
      | act acting i a b present shown stepped =>
          by_cases same : name = acting
          · subst same
            obtain ⟨-, -, -, -, waiting⟩ := scene?_eq_some shown
            cases (Function.update_self _ _ _).symm.trans playing
            exact Scene.hooked_step (ih waiting) stepped
          · exact ih ((Function.update_of_ne same _ _).symm.trans playing)
      | finish finished i o memory present ended =>
          by_cases same : name = finished
          · subst same
            cases (Function.update_self _ _ _).symm.trans playing
          · exact ih ((Function.update_of_ne same _ _).symm.trans playing)

theorem hooked_of_run {allowed : Situation → Move → Prop} (run : Run allowed {} now)
    (shown : now.scene? name = some a) : a.Hooked := by
  obtain ⟨-, -, -, -, playing⟩ := scene?_eq_some shown
  exact hooks_of_run run playing

theorem counts_of_run {allowed : Situation → Move → Prop} (run : Run allowed {} now)
    (name : String) : Counts name now := by
  induction run with
  | refl => exact rfl
  | tail before moved ih =>
      obtain ⟨move, -, moved⟩ := moved
      exact counts_next (fun a shown => tidy_of_shown before shown) ih moved

end Situation

end GuestVM
