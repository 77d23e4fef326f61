import GuestVM.Proofs.Bridge.Hosting
import GuestVM.Proofs.Bridge.Rejecting
import GuestVM.Proofs.HostErrors
import GuestVM.Proofs.Lifetime
import GuestVM.Proofs.SuperclassWalks

/-! # Definitions in frozen classes

A frozen class, module or singleton class takes no methods, bridged or not, and no constants: what
would write to its tables raises a FrozenError, and the tables stay as they were.  The exception is
the definition of a new class or module inside it, which does not look at the flag and binds its
name. -/
set_option autoImplicit false

namespace GuestVM

/-! ## Definitions -/

/-- The operations that write to the tables of classes. -/
inductive Definition where
  | newClass (outer : ObjId) (name : String) (superclass : Option ObjId)
  | newModule (outer : ObjId) (name : String)
  | constant (c : ObjId) (name : String) (v : Value)
  | method (c : ObjId) (mid : Sym) (entry : Method)
  | undefine (c : ObjId) (mid : Sym)
  | rename (c : ObjId) (new old : Sym)
  | callable (form : Form) (place : Placement) (name : String) (function : Nat) (aspec : Aspec)

namespace Definition

/-- What does it; the result is the class, module or proc that was made. -/
def act : Definition → Act (Option ObjId)
  | .newClass outer name superclass => do return some (← Act.defineClass outer name superclass)
  | .newModule outer name => do return some (← Act.defineModule outer name)
  | .constant c name v => do
    Act.constSet c name v
    return none
  | .method c mid entry => do
    Act.defineMethod c mid entry
    return none
  | .undefine c mid => do
    Act.undefMethod c mid
    return none
  | .rename c new old => do
    Act.aliasMethod c new old
    return none
  | .callable form place name function aspec => do
    return some (← Act.defineCallable form place name function aspec)

/-- It makes a class or module under a name that is free in `c`. -/
def Nests (d : Definition) (m : Machine) (c : ObjId) : Prop :=
  match d with
  | .newClass outer name superclass =>
    outer = c ∧ m.ownConst? c (m.symbols.intern name).1 = none ∧
      m.typeOf (.obj (superclass.getD Builtin.object.id)) = .plainClass
  | .newModule outer name => outer = c ∧ m.ownConst? c (m.symbols.intern name).1 = none
  | _ => False

/-- It comes to write to the tables of `c`, if nothing keeps it from doing so. -/
def Writes (d : Definition) (m : Machine) (c : ObjId) : Prop :=
  match d with
  | .newClass .. | .newModule .. => d.Nests m c
  | .constant x _ _ | .method x _ _ | .undefine x _ => x = c
  | .rename x _ old => x = c ∧ (m.findMethod c old).isSome
  | .callable _ place _ _ _ => place.Reaches m c

end Definition

/-- What definitions do to a frozen class with these tables. -/
structure Machine.Seals (m : Machine) (c : ObjId) (methods : SymMap Method)
    (consts : SymMap Value) : Prop where
  kept : ∀ (d : Definition) {r m'}, d.act.run.run m = (r, m') → r ≠ .error .endless →
    ¬ d.Nests m c → m'.Sealed c methods consts
  rejects : ∀ d : Definition, d.Writes m c → ¬ d.Nests m c → Act.Rejects d.act m
  /-- A new class or module gets its name although the class is frozen. -/
  nests : ∀ d : Definition, d.Nests m c →
    (∃ id s m', d.act.run.run m = (.ok (some id), m') ∧ m.ownConst? c s = none ∧
      m'.Sealed c methods (consts.insert s (.obj id))) ∨
    ¬ m.Healthy ∧ ∃ m', d.act.run.run m = (.error .endless, m')

section Definitions

variable {m : Machine} {c : ObjId} {methods : SymMap Method} {consts : SymMap Value}

open Act

theorem Act.Does.keeps_sealed {α : Type} {g : Grant} {a : Act α} {post : α → Machine → Prop}
    (does : Does g a m post) (tidy : m.heap.Tidy) (quiet : g.sweeps = false)
    (unnamed : g.names ≠ some c) (unedited : g.edits ≠ some c)
    (frozen : m.Sealed c methods consts) {r : Except Halt α} {m' : Machine}
    (ran : a.run.run m = (r, m')) (ends : r ≠ .error .endless) : m'.Sealed c methods consts := by
  have done := does tidy
  rw [ran] at done
  rcases r with (e | _) | x
  · exact done.1.keeps_sealed tidy quiet unnamed unedited frozen
  · exact absurd rfl ends
  · exact done.1.keeps_sealed tidy quiet unnamed unedited frozen

/-- A definition that makes no class in `c` is not granted to name one there. -/
theorem Definition.does (d : Definition) (other : ¬ d.Nests m c) :
    ∃ g : Grant, g.sweeps = false ∧ g.names ≠ some c ∧ g.edits = none ∧
      Does g d.act m fun _ _ => True := by
  have returning : ∀ {α : Type} {g : Grant} {a : Act α} {post : α → Machine → Prop}
      (f : α → Option ObjId), Does g a m post →
        Does g (a >>= fun x => pure (f x)) m fun _ _ => True :=
    fun f does => does.bind fun _ _ _ _ _ => .pure trivial
  cases d with
  | newClass outer name superclass =>
      let names := if outer = c then none else some outer
      refine ⟨{ ids := superclass.toList, founds := true, names }, rfl, ?_, rfl,
        returning some (does_defineClass rfl rfl ?_ fun x same => Option.mem_toList.mpr same)⟩
      · by_cases same : outer = c <;> simp [names, same]
      · intro unbound plain
        have apart : outer ≠ c := fun same => other ⟨same, same ▸ unbound, plain⟩
        simp [names, apart]
  | newModule outer name =>
      let names := if outer = c then none else some outer
      refine ⟨{ founds := true, names }, rfl, ?_, rfl, returning some (does_defineModule rfl ?_)⟩
      · by_cases same : outer = c <;> simp [names, same]
      · intro unbound
        have apart : outer ≠ c := fun same => other ⟨same, same ▸ unbound⟩
        simp [names, apart]
  | constant x name v =>
      exact ⟨{ ids := Value.objects [v] }, rfl, nofun, rfl,
        returning (fun _ => none) (does_constSet x name v fun _ member => member)⟩
  | method x mid entry =>
      exact ⟨{ ids := [entry.proc] }, rfl, nofun, rfl, returning (fun _ => none)
        (does_defineMethod x mid (.handed (List.mem_singleton_self _)))⟩
  | undefine x mid =>
      exact ⟨{}, rfl, nofun, rfl, returning (fun _ => none) (does_undefMethod x mid)⟩
  | rename x new old =>
      exact ⟨{}, rfl, nofun, rfl, returning (fun _ => none) (does_aliasMethod x new old)⟩
  | callable form place name function aspec =>
      exact ⟨{ founds := true }, rfl, nofun, rfl,
        returning some (does_defineCallable form place name function aspec)⟩

theorem Machine.seals (established : m.Established) (grounded : m.Grounded)
    (frozen : m.Sealed c methods consts) : m.Seals c methods consts where
  kept d r m' ran ends other := by
    obtain ⟨g, quiet, unnamed, unedited, does⟩ := d.does other
    exact does.keeps_sealed established.tidy quiet unnamed (unedited ▸ nofun) frozen ran ends
  rejects d writes other := by
    cases d with
    | newClass => exact absurd writes other
    | newModule => exact absurd writes other
    | constant x name v =>
        obtain rfl : x = c := writes
        exact (rejects_constSet established frozen name v).bind _
    | method x mid entry =>
        obtain rfl : x = c := writes
        exact (rejects_defineMethod established frozen mid entry).bind _
    | undefine x mid =>
        obtain rfl : x = c := writes
        exact (rejects_undefMethod established frozen mid).bind _
    | rename x new old =>
        obtain ⟨rfl, found⟩ := writes
        obtain ⟨method, found⟩ := Option.isSome_iff_exists.mp found
        exact (rejects_aliasMethod established frozen found new).bind _
    | callable form place name function aspec =>
        exact (rejects_defineCallable established grounded frozen writes form name function
          aspec).bind _
  nests d nests := by
    cases d with
    | newClass outer name superclass =>
        obtain ⟨rfl, unbound, plain⟩ := nests
        rcases run_defineClass_frozen established grounded frozen unbound plain with
          ⟨id, m', ran, named⟩ | ⟨unhealthy, m', ran⟩
        · exact .inl ⟨id, _, m', run_ok_bind ran _, unbound, named⟩
        · exact .inr ⟨unhealthy, m', by rw [Definition.act, run_bind, ran]⟩
    | newModule outer name =>
        obtain ⟨rfl, unbound⟩ := nests
        obtain ⟨id, m', ran, named⟩ := run_defineModule_frozen established.tidy frozen unbound
        exact .inl ⟨id, _, m', run_ok_bind ran _, unbound, named⟩
    | _ => exact nests.elim

end Definitions

/-! ## Definitions of host code -/

/-- Giving a callable to the guest ends with a FrozenError too, and then nothing but the exception
and the table of callables is new. -/
theorem Scene.steps_defineHosted_frozen {s : Stage} {c : ObjId} {methods : SymMap Method}
    {consts : SymMap Value} (seals : s.machine.Seals c methods consts) {k : Nat} {place : Placement}
    (reaches : place.Reaches s.machine c) (text : String) (form : Form) (discipline : Discipline)
    (body : CallContext → Value → Script) (aspec : Aspec) (next : Except Raised Nat → Script)
    (rest : List Pending) :
    let a : Scene := ⟨.defineHosted k place text form discipline body aspec next, rest, s⟩
    (∃ e t, Steps a ⟨next (.error e), rest, t⟩ ∧
      t.machine.realClassOf e.value = Builtin.frozenError.id ∧ t.machine.Sealed c methods consts) ∨
    ¬ s.machine.Healthy ∧ ∃ b, Steps a b ∧ b.step = none := by
  intro a
  have steps := steps_defineHosted s k place text form discipline body aspec next rest
  dsimp only at steps
  generalize (s.gaining k ⟨form, discipline, body⟩ aspec).bridge.formOf s.machine.handle
    (s.bridge.tables.register k ⟨form, discipline, body⟩ aspec).1 .bound = actual at steps
  generalize (s.bridge.tables.register k ⟨form, discipline, body⟩ aspec).1 = n at steps
  let d : Definition := .callable actual place text n aspec
  have act : ∀ {r m}, (Act.defineCallable actual place text n aspec).run.run s.machine =
      (.error r, m) → d.act.run.run s.machine = (.error r, m) := by
    intro r m ran
    rw [Definition.act, Act.run_bind, ran]
  rcases ran : (Act.defineCallable actual place text n aspec).run.run s.machine with
    ⟨(e | _) | p, m⟩
  · rw [ran] at steps
    refine .inl ⟨e, _, steps.steps, ?_, seals.kept d (act ran) nofun nofun⟩
    rcases seals.rejects d reaches nofun with ⟨e', m', raised, frozen⟩ | ⟨-, m', endless⟩
    · cases raised.symm.trans (act ran)
      exact frozen
    · cases endless.symm.trans (act ran)
  · rw [ran] at steps
    obtain ⟨onward, reached, stuck⟩ := steps
    rcases seals.rejects d reaches nofun with ⟨e', m', raised, -⟩ | ⟨unhealthy, -⟩
    · cases raised.symm.trans (act ran)
    · exact .inr ⟨unhealthy, _, reached.steps, stuck⟩
  · have made : d.act.run.run s.machine = (.ok (some p), m) := Act.run_ok_bind ran _
    rcases seals.rejects d reaches nofun with ⟨e', m', raised, -⟩ | ⟨-, m', endless⟩
    · cases raised.symm.trans made
    · cases endless.symm.trans made

/-! ## Runs -/

namespace Situation

attribute [local irreducible] Machine.opened

variable {now : Situation} {name : String} {i : Instance} {c : ObjId}

/-- No class or module is defined in the class. -/
def HandsOff (name : String) (c : ObjId) (now : Situation) : Move → Prop
  | .act acting =>
    acting = name → ∀ a, now.scene? name = some a → a.grant.names ≠ some c
  | _ => True

def HasSealed (name : String) (c : ObjId) (methods : SymMap Method) (consts : SymMap Value)
    (now : Situation) : Prop :=
  ∃ i, now.world.instance? name = some i ∧ i.machine.Sealed c methods consts

/-- What code that gives a callable to the guest comes to where it would write to a frozen class. -/
def RejectsHosted (now : Situation) (name : String) (c : ObjId) (methods : SymMap Method)
    (consts : SymMap Value) : Prop :=
  ∀ k place text form discipline body aspec next rest s,
    now.scene? name = some ⟨.defineHosted k place text form discipline body aspec next, rest, s⟩ →
    place.Reaches s.machine c →
      (∃ e t, Scene.Steps ⟨.defineHosted k place text form discipline body aspec next, rest, s⟩
          ⟨next (.error e), rest, t⟩ ∧
        t.machine.realClassOf e.value = Builtin.frozenError.id ∧
        t.machine.Sealed c methods consts) ∨
      ¬ s.machine.Healthy ∧ ∃ b, Scene.Steps
        ⟨.defineHosted k place text form discipline body aspec next, rest, s⟩ b ∧ b.step = none

/-- A class, module or singleton class that is frozen keeps its tables, and rejects every definition
that would write to them, but for that of a class or module inside it, which is made and named
there. -/
theorem frozen_class_definitions (run : Run Anything {} now)
    (present : now.world.instance? name = some i)
    (isClass : (i.machine.typeOf (.obj c)).isClassLike = true)
    (isFrozen : i.machine.isFrozen (.obj c) = true) :
    ∃ methods consts, i.machine.Sealed c methods consts ∧ i.machine.Seals c methods consts ∧
      RejectsHosted now name c methods consts ∧
      (∀ later, Run (fun s move => HandsOff name c s move ∧ Lives name c s) now later →
        Lives name c later → HasSealed name c methods consts later) ∧
      (Run Careful {} now → i.machine.Healthy) := by
  obtain ⟨methods, consts, frozen⟩ := Machine.sealed_of_isFrozen isClass isFrozen
  have seals := Machine.seals (run.established present) (grounded_of_run run present).2 frozen
  refine ⟨methods, consts, frozen, seals, ?_, ?_, ?_⟩
  · intro k place text form discipline body aspec next rest s shown reaches
    obtain ⟨j, found, machine, -⟩ := scene?_eq_some shown
    cases present.symm.trans found
    rw [← machine] at seals
    exact Scene.steps_defineHosted_frozen seals reaches text form discipline body aspec next rest
  · intro later onward lives
    refine kept_while_alive (P := fun m => m.Sealed c methods consts) ?_ run ⟨i, present, frozen⟩
      onward lives
    intro now a b handsOff shown lawful stepped tidy live frozen
    have unedited : a.grant.edits ≠ some c := by simp [lawful]
    exact Scene.step_keeps_sealed stepped tidy (handsOff rfl a shown) unedited live frozen
  · intro careful
    obtain ⟨tidy, closed, rooted⟩ := Run.rooted careful present
    exact ⟨tidy, closed, rooted⟩

/-! ## A module in a frozen class -/

/-- Defines a class and freezes it. -/
def sealing : Script :=
  .guest (.defineClass Builtin.object.id "Sealed" none) fun
    | .ok c => .guest (.freeze (.obj c)) fun _ => Script.ret (.obj c)
    | .error e => .done (.raised e)

/-- The slot after those that a new machine fills. -/
def sealedId : ObjId := ⟨62⟩

theorem sealing_replayed : ∃ a,
    carefully 2 ⟨sealing, [], { machine := .opened ⟨1⟩ {} }⟩ = some a ∧
      (a.stage.machine.typeOf (.obj sealedId)).isClassLike = true ∧
      a.stage.machine.isFrozen (.obj sealedId) = true ∧
      a.stage.machine.ownConst? sealedId (a.stage.machine.symbols.intern "Inner").1 = none := by
  have replayed : ((carefully 2 ⟨sealing, [], { machine := .opened ⟨1⟩ {} }⟩).any fun a =>
      (a.stage.machine.typeOf (.obj sealedId)).isClassLike &&
        a.stage.machine.isFrozen (.obj sealedId) &&
        decide (a.stage.machine.ownConst? sealedId (a.stage.machine.symbols.intern "Inner").1 =
          none)) = true := by
    rw [Machine.opened_eq]
    decide +kernel
  obtain ⟨a, reached, holds⟩ := (Option.any_eq_true _ _).mp replayed
  simp only [Bool.and_eq_true, decide_eq_true_eq] at holds
  exact ⟨a, reached, holds.1.1, holds.1.2, holds.2⟩

/-- The frozen class rejects a constant, and takes a module in the place of one. -/
theorem frozen_class_definitions_nested : ∃ now i methods consts, Run Careful {} now ∧
    now.world.instance? "vm" = some i ∧ i.machine.Sealed sealedId methods consts ∧
      (∃ e m', (Definition.constant sealedId "Inner" (.int 1)).act.run.run i.machine =
          (.error (.raised e), m') ∧ m'.realClassOf e.value = Builtin.frozenError.id ∧
        m'.Sealed sealedId methods consts) ∧
      ∃ id s m', (Definition.newModule sealedId "Inner").act.run.run i.machine =
          (.ok (some id), m') ∧ i.machine.ownConst? sealedId s = none ∧
        m'.Sealed sealedId methods (consts.insert s (.obj id)) := by
  obtain ⟨a, reached, isClass, isFrozen, unbound⟩ := sealing_replayed
  have run := run_carefully_beginning reached
  obtain ⟨methods, consts, frozen, seals, -, -, healthy⟩ :=
    frozen_class_definitions (run.mono fun _ _ _ => trivial) (World.instance?_put_self _) isClass
      isFrozen
  have healthy := healthy run
  refine ⟨_, _, methods, consts, run, World.instance?_put_self _, frozen, ?_, ?_⟩
  · rcases seals.rejects (.constant sealedId "Inner" (.int 1)) rfl nofun with
      ⟨e, m', ran, raised⟩ | ⟨unhealthy, -⟩
    · exact ⟨e, m', ran, raised, seals.kept _ ran nofun nofun⟩
    · exact absurd healthy unhealthy
  · rcases seals.nests (.newModule sealedId "Inner") ⟨rfl, unbound⟩ with named | ⟨unhealthy, -⟩
    · exact named
    · exact absurd healthy unhealthy

end Situation

end GuestVM
