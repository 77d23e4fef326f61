import GuestVM.Proofs.Bridge.Returning
import GuestVM.Proofs.Machine.Sparing
import GuestVM.Proofs.Situation

/-! # Operations that fail change nothing

Whatever writes to a machine checks before it writes, so where it raises, the exception is all that
is new.  For most operations this is so in every machine.  A class is made before its singleton class
is, and that one asks for the singleton classes of all superclasses: here nothing may be left to
raise, and nothing is, because the superclass of a class is alive as long as the class is.  Changes
keep this even where dead ids are handed over, for a class is made below a live class only. -/
set_option autoImplicit false

namespace GuestVM

/-! ## Superclasses stay alive -/

def Machine.Grounded (m : Machine) : Prop :=
  ∀ c data p, m.classData? c = some data → data.kind = .plain → data.superclass = some p → m.Live p

theorem Machine.Grounded.of_closed {m : Machine} (closed : m.Closed) : m.Grounded :=
  fun _ _ p found _ above => closed p
    (Machine.holds_of_classData? found (ClassData.mem_references.mpr (.inl above)))

section Changes

variable {g : Grant} {m m' : Machine}

theorem Change.grounded (change : Change g m m') (tidy : m.heap.Tidy) (grounded : m.Grounded) :
    m'.Grounded := by
  intro c data' p found plain above
  obtain ⟨o', present, body⟩ := Machine.classData?_eq_some.mp found
  have named : p ∈ o'.references := by
    refine Object.mem_references_of_body ?_
    rw [body]
    exact ClassData.mem_references.mpr (.inl above)
  refine change.live_of_named tidy present named ?_
  by_cases live : m.Live c
  · obtain ⟨data, before, superclass, kind⟩ := change.classData?_before tidy live found
    exact grounded c data p before (kind.trans plain) (superclass.trans above)
  · have dead : m.object? c = none := by simpa [Machine.Live] using live
    obtain ⟨q, below, parent⟩ := ((change.born tidy dead present).2 data' body).2 plain
    cases above.symm.trans below
    obtain ⟨o, there⟩ := Machine.live_of_typeOf parent (by decide)
    exact .of_object? there

theorem Evolution.grounded (evolution : Evolution g m m') (tidy : m.heap.Tidy)
    (grounded : m.Grounded) : m'.Grounded := by
  induction evolution with
  | refl => exact grounded
  | tail before change ih => exact change.grounded (Evolution.tidy before tidy) ih

end Changes

/-! ## Classes -/

namespace Act

variable {α : Type} {m m' : Machine}

theorem unraised_newSingleton (id : ObjId) (v : Value) (superclass : ObjId) :
    Unraised (newSingleton id v superclass) m :=
  (unraised_alloc _).bind fun _ _ _ => (unraised_onHeap _).bind fun _ _ _ => .pure _

/-- By recursion along the superclasses, which are all alive. -/
theorem unraised_singletonWithin (grounded : m.Grounded) (n : Nat) {id : ObjId} (live : m.Live id) :
    Unraised (singletonWithin n (.obj id)) m := by
  induction n generalizing id with
  | zero => exact fun _ _ => nofun
  | succ n ih =>
      obtain ⟨o, present⟩ := live.object?
      have found : ((Value.obj id).asObj.bind fun id => (m.object? id).map fun o => (id, o)) =
          some (id, o) := by simp [Value.asObj, present]
      refine .get_bind ?_
      simp only [found]
      split
      · exact .pure _
      split
      case h_1 parent _ _ isClass =>
          exact (ih (grounded id _ parent isClass rfl rfl)).bind fun superclass _ _ =>
            unraised_newSingleton id (.obj id) superclass
      case h_2 => exact unraised_newSingleton id (.obj id) o.cls

theorem unraised_singletonClass (grounded : m.Grounded) {id : ObjId} (live : m.Live id) :
    Unraised (singletonClass (.obj id)) m := .get_bind (unraised_singletonWithin grounded _ live)

theorem spares_singletonClass (grounded : m.Grounded) (v : Value) :
    Spares (singletonClass v) m fun _ _ => True := by
  cases found : v.asObj.bind fun id => (m.object? id).map fun o => (id, o) with
  | none =>
      refine .get_bind (.get_bind ?_)
      simp only [found]
      exact spares_fail _ _
  | some pair =>
      obtain ⟨id, isObject, there⟩ := Option.bind_eq_some_iff.mp found
      obtain ⟨o, present, -⟩ := Option.map_eq_some_iff.mp there
      cases v with
      | obj x =>
          cases isObject
          exact .of_unraised (unraised_singletonClass grounded (.of_object? present))
      | _ => cases isObject

theorem spares_defineClass (grounded : m.Grounded) (outer : ObjId) (name : String)
    (superclass : Option ObjId) : Spares (defineClass outer name superclass) m fun _ _ => True := by
  refine .intern_bind fun s => .get_bind ?_
  split
  case h_1 bound _ =>
      dsimp only
      split
      · exact spares_fail_bind _ _ _
      refine .check_bind (spares_expectClass bound) fun id => ?_
      split
      · split
        · exact spares_fail_bind _ _ _
        · exact .pure trivial
      · exact .pure trivial
  case h_2 =>
      dsimp only
      split
      · exact spares_fail_bind _ _ _
      rename_i plain
      have parent := Decidable.not_not.mp plain
      have makes : Does { founds := true } (newClass name (some (superclass.getD Builtin.object.id))
          .plain) (m.interning [name]) fun id m' => m'.Live id := by
        refine does_newClass name rfl (fun v => nofun) (fun _ => ⟨_, rfl, parent⟩) ?_
        intro x same
        cases same
        obtain ⟨o, present⟩ := Machine.live_of_typeOf parent (by decide)
        exact .alive (.of_object? present)
      refine .of_tidy fun tidy =>
        .of_unraised ((unraised_newClass _ _ _).bind fun id made ran => ?_)
      obtain ⟨evolution, live⟩ : Evolution { founds := true } (m.interning [name]) made ∧
          made.Live id := by
        have made := makes tidy
        rwa [ran] at made
      refine (unraised_singletonClass (evolution.grounded tidy grounded) live).bind fun _ _ _ => ?_
      exact (unraised_putConst outer s _).bind fun _ _ _ => .pure _

/-! ## The operations -/

/-- The operations that write to objects and make them. -/
inductive Mutator : {α : Type} → Act α → Prop
  | arraySet (a : Value) (index : Int64) (v : Value) : Mutator (arraySet a index v)
  | arrayPush (a v : Value) : Mutator (arrayPush a v)
  | stringAppend (s : Value) (tail : String) : Mutator (stringAppend s tail)
  | hashSet (h key v : Value) : Mutator (hashSet h key v)
  | hashDelete (h key : Value) : Mutator (hashDelete h key)
  | hashClear (h : Value) : Mutator (hashClear h)
  | ivarSet (target : Value) (name : String) (v : Value) : Mutator (ivarSet target name v)
  | constSet (c : ObjId) (name : String) (v : Value) : Mutator (constSet c name v)
  | defineClass (outer : ObjId) (name : String) (superclass : Option ObjId) :
      Mutator (defineClass outer name superclass)
  | defineModule (outer : ObjId) (name : String) : Mutator (defineModule outer name)
  | defineMethod (c : ObjId) (mid : Sym) (method : Method) : Mutator (defineMethod c mid method)
  | undefMethod (c : ObjId) (mid : Sym) : Mutator (undefMethod c mid)
  | aliasMethod (c : ObjId) (new old : Sym) : Mutator (aliasMethod c new old)
  | singletonClass (v : Value) : Mutator (singletonClass v)
  | objectNew (c : ObjId) : Mutator (objectNew c)
  | procEnvSet (proc : ObjId) (index : Int64) (v : Value) : Mutator (procEnvSet proc index v)
  | attachEnv (proc : Value) (values : List Value) : Mutator (attachEnv proc values)
  | rangeSpan (r : Value) (len : Int64) (trunc : Bool) : Mutator (rangeSpan r len trunc)

theorem Mutator.spares {a : Act α} (mutator : Mutator a) (grounded : m.Grounded) :
    Spares a m fun _ _ => True := by
  cases mutator with
  | arraySet a index v => exact (spares_arraySet a index v).any
  | arrayPush a v => exact (spares_arrayPush a v).any
  | stringAppend s tail => exact (spares_stringAppend s tail).any
  | hashSet h key v => exact (spares_hashSet h key v).any
  | hashDelete h key => exact (spares_hashDelete h key).any
  | hashClear h => exact (spares_hashClear h).any
  | ivarSet target name v => exact spares_ivarSet target name v
  | constSet c name v => exact spares_constSet c name v
  | defineClass outer name superclass => exact spares_defineClass grounded outer name superclass
  | defineModule outer name => exact spares_defineModule outer name
  | defineMethod c mid method => exact spares_defineMethod c mid method
  | undefMethod c mid => exact spares_undefMethod c mid
  | aliasMethod c new old => exact spares_aliasMethod c new old
  | singletonClass v => exact spares_singletonClass grounded v
  | objectNew c => exact spares_objectNew c
  | procEnvSet proc index v => exact spares_procEnvSet proc index v
  | attachEnv proc values => exact spares_attachEnv proc values
  | rangeSpan r len trunc => exact (spares_rangeSpan r len trunc).any

/-- A class cannot be made below something that is no class. -/
theorem run_defineClass_refused (tidy : m.heap.Tidy) (rooted : m.Rooted)
    {outer parent : ObjId} {name : String}
    (free : m.ownConst? outer (m.symbols.intern name).1 = none)
    (other : m.typeOf (.obj parent) ≠ .plainClass) :
    ∃ e m', (defineClass outer name (some parent)).run.run m = (.error (.raised e), m') := by
  have free' : (m.interning [name]).ownConst? outer (m.symbols.intern name).1 = none := free
  have other' : (m.interning [name]).typeOf (.obj parent) ≠ .plainClass := other
  have after : (m.interning [name]).Rooted := rooted.of_slots rfl
  obtain ⟨e, m', ran⟩ := run_fail (α := PUnit) (after.raisable tidy Builtin.typeError.id)
    "superclass must be a Class"
  refine ⟨e, m', ?_⟩
  unfold defineClass
  rw [run_ok_bind (run_intern name), run_get_bind, free']
  dsimp only [Option.getD_some]
  rw [if_pos other', run_bind, ran]

end Act

/-! ## Runs -/

namespace Situation

attribute [local irreducible] Machine.opened

variable {now : Situation} {name : String} {i : Instance}

theorem grounded_of_run (run : Run Anything {} now) (present : now.world.instance? name = some i) :
    i.machine.heap.Tidy ∧ i.machine.Grounded := by
  refine Run.machines (P := fun m => m.heap.Tidy ∧ m.Grounded) ?_ ?_ run present
  · intro h config
    have original := Machine.original_opened h config
    exact ⟨original.tidy, .of_closed (.of_original original)⟩
  · intro now name a b _ _ _ stepped holds
    have evolution := (Scene.step_evolution stepped holds.1).1
    exact ⟨evolution.tidy holds.1, evolution.grounded holds.1 holds.2⟩

/-- An operation that raises, on whatever it was called, leaves the machine as it was, but for the
exception, which is current, and for names that were interned. -/
theorem failed_mutator_unharmed {α : Type} {a : Act α} {e : Raised} {m' : Machine}
    (run : Run Anything {} now) (present : now.world.instance? name = some i)
    (mutator : Act.Mutator a) (failed : a.run.run i.machine = (.error (.raised e), m')) :
    ∃ id, i.machine.Unharmed e m' id := by
  obtain ⟨tidy, grounded⟩ := grounded_of_run run present
  have spared := mutator.spares grounded tidy
  rw [failed] at spared
  exact spared.unharmed tidy

theorem failed_mutator_unharmed_below_module : ∃ now i e m', Run Anything {} now ∧
    now.world.instance? "vm" = some i ∧
      (Act.defineClass Builtin.object.id "Lost" (some Builtin.kernel.id)).run.run i.machine =
        (.error (.raised e), m') ∧ ∃ id, i.machine.Unharmed e m' id := by
  have original := Machine.original_opened ⟨1⟩ {}
  obtain ⟨free, other⟩ : (Machine.opened ⟨1⟩ {}).ownConst? Builtin.object.id
      ((Machine.opened ⟨1⟩ {}).symbols.intern "Lost").1 = none ∧
        (Machine.opened ⟨1⟩ {}).typeOf (.obj Builtin.kernel.id) ≠ .plainClass := by
    rw [Machine.opened_eq]
    decide +kernel
  obtain ⟨e, m', refused⟩ := Act.run_defineClass_refused original.tidy
    (Machine.rooted_of_original original) free other
  have run : Run Anything {} (beginning (Script.ret .nil)) :=
    run_beginning (Script.ret .nil) trivial trivial
  have present : (beginning (Script.ret .nil)).world.instance? "vm" =
      some { machine := .opened ⟨1⟩ {} } := rfl
  exact ⟨_, _, e, m', run, present, refused,
    failed_mutator_unharmed run present (.defineClass _ _ _) refused⟩

end Situation

end GuestVM
