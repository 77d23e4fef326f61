import GuestVM.Proofs.Bridge.Slots
import GuestVM.Proofs.HostErrors
import GuestVM.Proofs.Lifetime
import GuestVM.Proofs.Linked

/-! # Environments are written once and belong to one proc

Where no script gives a proc an environment from outside the rules and no object is edited, every
environment belongs to one proc.  One that has values in it is neither replaced nor resized for as
long as the proc lives, its slots are read through that proc only, and a write to one of them is seen
nowhere else. -/
set_option autoImplicit false

namespace GuestVM

namespace Machine

variable {m : Machine}

/-- What environments are to the operations that attach, read and write them. -/
structure Enclosing (m : Machine) : Prop where
  privately : m.PrivateEnvs
  /-- A read has a result exactly for a slot that is there, and then leaves everything as it is. -/
  reads : ∀ proc index,
    (∃ v m', (Act.envGet proc index).run.run m = (.ok v, m')) ↔
      ∃ p, proc = .obj p ∧ m.Live p ∧ m.procIsNative p = true ∧ (m.procEnv p).isSome ∧
        0 ≤ index.toInt ∧ index.toInt < m.attachedLen proc
  /-- What a read comes to is `enclosed`, result or error. -/
  answers : ∀ proc index,
    match m.enclosed proc index with
    | .ok v => (Act.envGet proc index).run.run m = (.ok v, m)
    | .error c => m.Fails (Act.envGet proc index) c.kind c.message
  /-- A write that succeeds changes what one slot of one proc answers. -/
  writes : ∀ proc index v m', (Act.envSet proc index v).run.run m = (.ok (), m') →
    m'.enclosed proc index = .ok v ∧
      ∀ other j, other ≠ proc ∨ j ≠ index → m'.enclosed other j = m.enclosed other j
  /-- A proc with values in its environment is refused another, and no environment changes. -/
  attaches : ∀ p values, values ≠ [] → 0 < m.attachedLen (.obj p) →
    ∃ e m', (Act.attachEnv (.obj p) values).run.run m = (.error (.raised e), m') ∧
      m'.realClassOf e.value = Builtin.typeError.id ∧
        (∀ q, m'.procEnv q = m.procEnv q) ∧ ∀ env, m'.env? env = m.env? env

/-- An exception that is all that is new is neither a proc nor an environment. -/
theorem Unharmed.environments {e : Raised} {m' : Machine} {id : ObjId}
    (unharmed : m.Unharmed e m' id) :
    (∀ q, m'.procEnv q = m.procEnv q) ∧ ∀ env, m'.env? env = m.env? env := by
  obtain ⟨c, made⟩ := unharmed.made
  constructor
  · intro q
    by_cases same : q = id
    · simp [procEnv, procData?, same, made, unharmed.dead]
    · rw [procEnv, procData?, unharmed.objects q same, procEnv, procData?]
  · intro env
    by_cases same : env = id
    · simp [env?, same, made, unharmed.dead]
    · rw [env?, unharmed.objects env same, env?]

theorem enclosing (established : m.Established) (envs : m.PrivateEnvs) : m.Enclosing where
  privately := envs
  reads proc index := by
    rw [← enclosed_ok_iff, Act.run_envGet]
    cases m.enclosed proc index with
    | ok v => exact ⟨fun _ => ⟨v, rfl⟩, fun _ => ⟨v, m, rfl⟩⟩
    | error c =>
        obtain ⟨e, m', -, failed, -⟩ := established.fails (a := (Act.fail c.kind c.message)) rfl
        constructor
        · rintro ⟨v, m'', ran⟩
          cases failed.symm.trans ran
        · rintro ⟨v, none⟩
          cases none
  answers proc index := by
    have ran := Act.run_envGet (m := m) proc index
    cases read : m.enclosed proc index with
    | ok v =>
        rw [read] at ran
        exact ran
    | error c =>
        rw [read] at ran
        exact established.fails ran
  writes proc index v m' written := by
    rw [Act.run_envSet] at written
    cases found : m.slot proc index with
    | ok s =>
        rw [found] at written
        cases written
        exact ⟨enclosed_writing_self v found, fun other j apart =>
          enclosed_writing_of_ne v envs.toOwnEnvs found apart⟩
    | error c =>
        rw [found] at written
        obtain ⟨e, m'', -, failed, -⟩ := established.fails (a := (Act.fail c.kind c.message)) rfl
        cases failed.symm.trans written
  attaches p values given taken := by
    obtain ⟨e, m', id, failed, unharmed, kind, -⟩ :=
      established.fails (Act.run_attachEnv_taken given taken)
    exact ⟨e, m', failed, kind, unharmed.environments⟩

theorem PrivateEnvs.of_original (original : m.Original) : m.PrivateEnvs := by
  have own := OwnEnvs.of_original original
  refine ⟨own, fun p e owned => ?_⟩
  obtain ⟨o, data, present, isProc, -⟩ := procEnv_eq_some.mp owned
  have shape := original.objects p o present
  simp [Object.Original, isProc] at shape

end Machine

theorem Scene.step_encloses {a b : Scene} {p e : ObjId} {n : Nat} (stepped : a.step = some b)
    (tidy : a.stage.machine.heap.Tidy) (rebinds : a.grant.rebinds = none)
    (lawful : a.Lawful) (live : b.stage.machine.Live p) (filled : 0 < n)
    (encloses : a.stage.machine.Encloses p e n) : b.stage.machine.Encloses p e n := by
  cases sweeps : a.grant.sweeps with
  | false => exact (step_evolution stepped tidy).1.encloses tidy rebinds lawful sweeps filled encloses
  | true =>
      obtain ⟨next, script⟩ := script_of_sweeps sweeps
      rw [machine_of_collect script stepped] at live ⊢
      have collected : Change { sweeps := true } a.stage.machine _ := .collect rfl rfl
      exact collected.encloses tidy rfl rfl live filled encloses

namespace Situation

attribute [local irreducible] Machine.opened

variable {now later : Situation} {name : String} {i : Instance} {p e : ObjId}
  {n : Nat}

/-- No script gives a proc another environment from outside the rules. -/
def Unforced (now : Situation) : Move → Prop
  | .act name => ∀ a, now.scene? name = some a → a.grant.rebinds = none
  | _ => True

theorem Run.privateEnvs (run : Run Unforced {} now) (present : now.world.instance? name = some i) :
    i.machine.heap.Tidy ∧ i.machine.PrivateEnvs := by
  refine Run.machines (P := fun m => m.heap.Tidy ∧ m.PrivateEnvs) ?_ ?_ run present
  · intro h c
    have original := Machine.original_opened h c
    exact ⟨original.tidy, .of_original original⟩
  · intro now name a b unforced shown lawful stepped holds
    obtain ⟨tidy, envs⟩ := holds
    have evolution := (Scene.step_evolution stepped tidy).1
    exact ⟨evolution.tidy tidy, evolution.privateEnvs tidy (unforced a shown) lawful envs⟩

/-- While a proc lives, values once attached to it stay attached, as many as they are. -/
theorem encloses_run (run : Run Unforced {} now) (present : now.world.instance? name = some i)
    (encloses : i.machine.Encloses p e n) (filled : 0 < n)
    (onward : Run (fun s move => Unforced s move ∧ Lives name p s) now later)
    (lives : Lives name p later) :
    ∃ j, later.world.instance? name = some j ∧ j.machine.Encloses p e n := by
  refine kept_while_alive (P := fun m => m.Encloses p e n) ?_ (run.mono fun _ _ _ => trivial)
    ⟨i, present, encloses⟩ onward lives
  intro now a b unforced shown lawful stepped tidy live encloses
  exact Scene.step_encloses stepped tidy (unforced a shown) lawful live filled encloses

/-- Environments are unshared and belong to one proc each; they are read and written through that
proc only, and one that has values in it is neither replaced nor resized while the proc lives. -/
theorem closure_environments_kept (run : Run Unforced {} now)
    (present : now.world.instance? name = some i) :
    i.machine.Enclosing ∧ ∀ p later j, 0 < i.machine.attachedLen (.obj p) →
      Run (fun s move => Unforced s move ∧ Lives name p s) now later → Lives name p later →
        later.world.instance? name = some j →
          j.machine.attachedLen (.obj p) = i.machine.attachedLen (.obj p) := by
  refine ⟨Machine.enclosing (run.established present) (run.privateEnvs present).2, ?_⟩
  intro p later j taken onward lives present'
  obtain ⟨e, encloses⟩ := Machine.encloses_of_attachedLen taken
  obtain ⟨k, found, still⟩ := encloses_run run present encloses taken onward lives
  cases found.symm.trans present'
  exact still.attachedLen

/-! ## Values attached twice -/

/-- Makes a native proc with an environment of two values, then another proc, attaches a value to
each of the two, and collects. -/
def attaching : Script :=
  .newNative (fun _ => Script.ret .nil) fun p =>
    .bridge (.attachEnv (.obj p) [.int 1, .int 2]) fun _ =>
      .newNative (fun _ => Script.ret .nil) fun q =>
        .bridge (.attachEnv (.obj q) [.int 3]) fun _ =>
          .bridge (.attachEnv (.obj p) [.int 9]) fun _ => .guest .collect fun _ => Script.ret .nil

/-- The slot after those that a new machine fills. -/
def attached : ObjId := ⟨62⟩

/-- What some steps of a scene come to, if no environment is forced on a proc and one proc lives. -/
def unforced (p : ObjId) (n : Nat) (a : Scene) : Option Scene :=
  a.replay (fun a => a.Lawful ∧ a.grant.rebinds = none ∧ a.stage.machine.Live p) n

theorem run_unforced {a b : Scene} (replayed : unforced p n a = some b) :
    Run (fun s move => Unforced s move ∧ Lives name p s)
      (now.showing name i a) (now.showing name i b) := by
  refine run_while (Scene.steps_of_replay replayed) ?_
  rintro x ⟨lawful, kept, lives⟩
  refine ⟨lawful, fun a shown => ?_, _, World.instance?_put_self _, lives⟩
  cases scene?_showing.symm.trans shown
  exact kept

theorem attaching_replayed : ∃ a b c,
    unforced Builtin.object.id 1 ⟨attaching, [], { machine := .opened ⟨1⟩ {} }⟩ = some a ∧
      unforced attached 1 a = some b ∧ unforced attached 4 b = some c ∧
      b.stage.machine.attachedLen (.obj attached) = 2 ∧ c.stage.machine.Live attached := by
  have replayed : ((unforced Builtin.object.id 1
      ⟨attaching, [], { machine := .opened ⟨1⟩ {} }⟩).any fun a =>
        (unforced attached 1 a).any fun b =>
          decide (b.stage.machine.attachedLen (.obj attached) = 2) &&
            (unforced attached 4 b).any fun c => decide (c.stage.machine.Live attached)) = true := by
    rw [Machine.opened_eq]
    decide +kernel
  obtain ⟨a, first, rest⟩ := (Option.any_eq_true _ _).mp replayed
  obtain ⟨b, second, rest⟩ := (Option.any_eq_true _ _).mp rest
  obtain ⟨length, rest⟩ := (Bool.and_eq_true _ _).mp rest
  obtain ⟨c, third, lives⟩ := (Option.any_eq_true _ _).mp rest
  exact ⟨a, b, c, first, second, third, of_decide_eq_true length, of_decide_eq_true lives⟩

/-- The first proc keeps its two values when it is given a third and when the rest is collected. -/
theorem closure_environments_kept_attached : ∃ now later i j, Run Unforced {} now ∧
    now.world.instance? "vm" = some i ∧ i.machine.Enclosing ∧
      i.machine.attachedLen (.obj attached) = 2 ∧
      Run (fun s move => Unforced s move ∧ Lives "vm" attached s) now later ∧
      later.world.instance? "vm" = some j ∧ j.machine.attachedLen (.obj attached) = 2 := by
  obtain ⟨a, b, c, first, second, third, length, lives⟩ := attaching_replayed
  have begun : Run Unforced {} (beginning attaching) := run_beginning attaching trivial trivial
  rw [← showing_beginning attaching] at begun
  have run : Run Unforced {}
      ((beginning attaching).showing "vm" { machine := .opened ⟨1⟩ {} } b) :=
    (begun.trans ((run_unforced first).mono fun _ _ both => both.1)).trans
      ((run_unforced second).mono fun _ _ both => both.1)
  obtain ⟨enclosing, kept⟩ := closure_environments_kept run (World.instance?_put_self _)
  have stays := kept attached _ _ (by rw [length]; decide) (run_unforced third)
    ⟨_, World.instance?_put_self _, lives⟩ (World.instance?_put_self _)
  exact ⟨_, _, _, _, run, World.instance?_put_self _, enclosing, length, run_unforced third,
    World.instance?_put_self _, stays.trans length⟩

end Situation

end GuestVM
