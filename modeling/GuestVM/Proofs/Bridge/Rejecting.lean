import GuestVM.Proofs.Bridge.Bridging
import GuestVM.Proofs.Bridge.Slots
import GuestVM.Proofs.FailedMutators
import GuestVM.Proofs.Machine.Sealing
import GuestVM.Proofs.Machine.Singling

/-! # What frozen classes reject

An action that comes to the flag of a frozen class raises a FrozenError, whatever it did before.  The
error is raised with the name of a class, which in a machine that was handed dead ids need not have
an end; in any other it has one. -/
set_option autoImplicit false

namespace GuestVM

/-- Nothing in the machine names a dead id, and superclass chains end. -/
structure Machine.Healthy (m : Machine) : Prop where
  tidy : m.heap.Tidy
  closed : m.Closed
  rooted : m.Rooted

theorem Evolution.healthy {g : Grant} {m m' : Machine} (evolution : Evolution g m m')
    (handed : ∀ y ∈ g.ids, m.Live y) (healthy : m.Healthy) : m'.Healthy := by
  obtain ⟨closed, rooted⟩ := evolution.rooted healthy.tidy handed healthy.closed healthy.rooted
  exact ⟨evolution.tidy healthy.tidy, closed, rooted⟩

namespace Act

variable {α β : Type} {m m' : Machine}

/-- The action raises a FrozenError, unless it has no end, and then the machine was handed dead
ids. -/
def Rejects (a : Act α) (m : Machine) : Prop :=
  (∃ e m', a.run.run m = (.error (.raised e), m') ∧
    m'.realClassOf e.value = Builtin.frozenError.id) ∨
    ¬ m.Healthy ∧ ∃ m', a.run.run m = (.error .endless, m')

namespace Rejects

variable {a : Act α} {f : α → Act β}

protected theorem bind (rejects : Rejects a m) (f : α → Act β) : Rejects (a >>= f) m := by
  rcases rejects with ⟨e, m', ran, frozen⟩ | ⟨unhealthy, m', ran⟩
  · exact .inl ⟨e, m', by rw [run_bind, ran], frozen⟩
  · exact .inr ⟨unhealthy, m', by rw [run_bind, ran]⟩

theorem after {x : α} (ran : a.run.run m = (.ok x, m')) (healthy : m.Healthy → m'.Healthy)
    (rejects : Rejects (f x) m') : Rejects (a >>= f) m := by
  have same : (a >>= f).run.run m = (f x).run.run m' := run_ok_bind ran f
  rcases rejects with ⟨e, m'', raised, frozen⟩ | ⟨unhealthy, m'', endless⟩
  · exact .inl ⟨e, m'', same.trans raised, frozen⟩
  · exact .inr ⟨fun before => unhealthy (healthy before), m'', same.trans endless⟩

theorem get_bind {f : Machine → Act β} (rejects : Rejects (f m) m) :
    Rejects ((get : Act Machine) >>= f) m := rejects

theorem inArenaScope (rejects : Rejects a m) : Rejects (inArenaScope a) m := by
  rcases rejects with ⟨e, m', ran, frozen⟩ | ⟨unhealthy, m', ran⟩
  · let cut : Machine := { m' with heap := m'.heap.arenaRestore m.heap.arenaSave }
    have slots : cut.heap.slots = m'.heap.slots := rfl
    have same := Machine.realClassOf_congr slots e.value
    exact .inl ⟨e, cut, by rw [run_inArenaScope, ran], same.trans frozen⟩
  · exact .inr ⟨unhealthy, _, by rw [run_inArenaScope, ran]⟩

end Rejects

section Tables

variable {c : ObjId} {methods : SymMap Method} {consts : SymMap Value}

theorem rejects_frozenError (established : m.Established) (v : Value) :
    Rejects (throwing (frozenError v) : Act α) m := by
  have made : (frozenError v).run.run m = ((ofOption (m.realClassName v)) >>= fun name =>
    raise Builtin.frozenError.id ("can't modify frozen " ++ name)).run.run m := rfl
  cases named : m.realClassName v with
  | none =>
      rw [named] at made
      refine .inr ⟨fun healthy => ?_, m, by rw [throwing, run_bind, made]; rfl⟩
      have isSome := healthy.rooted.realClassName_isSome v
      rw [named] at isSome
      cases isSome
  | some name =>
      rw [named] at made
      have same : (throwing (frozenError v) : Act α).run.run m =
          (fail .frozenError ("can't modify frozen " ++ name) : Act α).run.run m := by
        rw [fail, throwing, throwing, run_bind, run_bind, made]
        rfl
      obtain ⟨e, m', id, ran, -, frozen, -⟩ := established.fails same
      exact .inl ⟨e, m', ran, frozen⟩

theorem rejects_checkFrozen (established : m.Established)
    (frozen : m.Sealed c methods consts) : Rejects (checkFrozen (.obj c)) m := by
  unfold checkFrozen
  refine .get_bind ?_
  rw [if_pos ⟨rfl, frozen.isFrozen⟩]
  exact rejects_frozenError established _

theorem run_expectClass (typed : (m.typeOf (.obj c)).isClassLike = true) :
    (expectClass (.obj c)).run.run m = (.ok c, m) :=
  expectClass_eq (.obj c) ▸ run_expecting typed _

theorem rejects_constSet (established : m.Established) (frozen : m.Sealed c methods consts)
    (name : String) (v : Value) : Rejects (constSet c name v) m :=
  .after (run_expectClass frozen.isClassLike) id ((rejects_checkFrozen established frozen).bind _)

theorem rejects_defineMethod (established : m.Established) (frozen : m.Sealed c methods consts)
    (mid : Sym) (method : Method) : Rejects (defineMethod c mid method) m :=
  .after (run_expectClass frozen.isClassLike) id ((rejects_checkFrozen established frozen).bind _)

theorem rejects_undefMethod (established : m.Established) (frozen : m.Sealed c methods consts)
    (mid : Sym) : Rejects (undefMethod c mid) m := (rejects_checkFrozen established frozen).bind _

theorem rejects_aliasMethod (established : m.Established) (frozen : m.Sealed c methods consts)
    {old : Sym} {method : Method} (found : m.findMethod c old = some method) (new : Sym) :
    Rejects (aliasMethod c new old) m := by
  have climbed : m.findMethod? c old = some (some method) := Option.join_eq_some_iff.mp found
  refine .get_bind ?_
  rw [climbed]
  exact rejects_defineMethod established frozen new method

end Tables

/-! ## Bridged methods -/

section Bridged

variable {c : ObjId} {methods : SymMap Method} {consts : SymMap Value}

/-- A proc without values in its environment is given one. -/
theorem run_attachEnv_bare {p : ObjId} {o : Object} {data : ProcData} {values : List Value}
    (present : m.object? p = some o) (body : o.body = .proc data) (given : values ≠ [])
    (bare : m.attachedLen (.obj p) = 0) :
    ∃ m', (attachEnv (.obj p) values).run.run m = (.ok (), m') := by
  have isProc : m.typeOf (.obj p) = .proc := by rw [Machine.typeOf_obj present, Object.tag, body]
  rw [run_attachEnv isProc given, bare, if_neg (Nat.lt_irrefl 0)]
  exact ⟨_, rfl⟩

/-- A bridged proc is made whatever the machine is like, and objects stay as they are. -/
theorem run_newBridged (tidy : m.heap.Tidy) (form : Form) (n : Nat) :
    ∃ p m', (newBridged form n).run.run m = (.ok p, m') ∧ Evolution {} m m' ∧
      ∀ x o, m.object? x = some o → m'.object? x = some o := by
  let code : Object :=
    { cls := Builtin.proc.id
      body := .proc { body := .native (gateway form), flags := { native := true } } }
  have present : (m.withNew code).object? (m.newId code) = some code :=
    (Machine.object?_withNew tidy code _).trans (if_pos rfl)
  have bare : (m.withNew code).attachedLen (.obj (m.newId code)) = 0 := by
    simp [Machine.attachedLen, Value.asObj, Machine.procEnv, Machine.procData?, present, code]
  have given : [Value.int (Int64.ofNat n)] ≠ [] := List.cons_ne_nil _ _
  obtain ⟨m', attached⟩ := run_attachEnv_bare present rfl given bare
  have made : (newNative (gateway form)).run.run m = (.ok (m.newId code), m.withNew code) := rfl
  have ran : (newBridged form n).run.run m = (.ok (m.newId code), m') := by
    unfold newBridged
    rw [run_ok_bind made, run_ok_bind attached]
    rfl
  have does := does_newBridged (g := {}) (m := m) form n tidy
  rw [ran] at does
  exact ⟨_, m', ran, does.1, does.2.2.2.2⟩

theorem rejects_defineBridged (established : m.Established) (frozen : m.Sealed c methods consts)
    (form : Form) (name : String) (n : Nat) (aspec : Aspec) :
    Rejects (defineBridged form c name n aspec) m := by
  obtain ⟨p, made, ran, evolution, kept⟩ := run_newBridged established.tidy form n
  refine .inArenaScope (.after ran (evolution.healthy nofun) ?_)
  have named : Evolution {} made (made.interning [name]) := .single (.intern name)
  refine .after (run_intern name) (named.healthy nofun) (.bind ?_ _)
  have still : (made.interning [name]).Sealed c methods consts := frozen.of_object? (kept c)
  exact rejects_defineMethod (named.established (evolution.established established)) still _ _

/-- A thawed class takes a bridged method. -/
theorem run_defineBridged_thawed {o : Object} {data : ClassData} (tidy : m.heap.Tidy)
    (present : m.object? c = some o) (body : o.body = .class data) (thawed : o.frozen = false)
    (form : Form) (name : String) (n : Nat) (aspec : Aspec) :
    ∃ p m', (defineBridged form c name n aspec).run.run m = (.ok p, m') := by
  obtain ⟨p, made, ran, -, kept⟩ := run_newBridged tidy form n
  let named : Machine := made.interning [name]
  have still : named.object? c = some o := kept c o present
  have typed : (named.typeOf (.obj c)).isClassLike = true := by
    rw [Machine.typeOf_obj still]
    exact Object.isClassLike_of_body body
  obtain ⟨m', defined⟩ : ∃ m', (defineMethod c (made.symbols.intern name).1
      { proc := p, noArg := aspec.isNone }).run.run named = (.ok (), m') := by
    unfold defineMethod
    rw [run_ok_bind (run_expectClass typed), run_ok_bind (run_checkFrozen still thawed)]
    exact ⟨_, rfl⟩
  have inside : (do
      let proc ← newBridged form n
      let mid ← intern name
      defineMethod c mid { proc := proc, noArg := aspec.isNone }
      return proc : Act ObjId).run.run m = (.ok p, m') := by
    rw [run_ok_bind ran, run_ok_bind (run_intern name), run_ok_bind defined]
    rfl
  exact ⟨p, _, by rw [defineBridged, run_inArenaScope, inside]⟩

end Bridged

/-! ## Singleton classes -/

section Singletons

variable {c s x : ObjId} {o : Object} {methods : SymMap Method} {consts : SymMap Value}

/-- The singleton class of a live object: there is one when the making ends, and an evolution leads
to it. -/
theorem run_singletonClass_live (established : m.Established) (grounded : m.Grounded)
    (live : m.Live x) :
    (∃ s m', (singletonClass (.obj x)).run.run m = (.ok s, m') ∧ isSingletonOf m' s (.obj x) = true ∧
        Evolution { founds := true } m m') ∨
      ¬ m.Healthy ∧ ∃ m', (singletonClass (.obj x)).run.run m = (.error .endless, m') := by
  have does := does_singletonClass (g := { founds := true }) (m := m) rfl rfl (.obj x)
    established.tidy
  rcases ran : (singletonClass (.obj x)).run.run m with ⟨(e | _) | s, m'⟩
  · exact (unraised_singletonClass grounded live e m' ran).elim
  · refine .inr ⟨fun healthy => ?_, m', rfl⟩
    exact (run_singletonClass healthy.tidy healthy.rooted (.obj x)).1 (by rw [ran])
  · rw [ran] at does
    have own := (obtains_of_singletonClass established.tidy ran).isSingletonOf established.tidy
    exact .inl ⟨s, m', rfl, own, does.1⟩

end Singletons

end Act

/-! ## Places -/

/-- The class `c` is the singleton class of the object `v`. -/
def Machine.Attached (m : Machine) (c : ObjId) (v : Value) : Prop :=
  ∃ x o, v = .obj x ∧ m.object? x = some o ∧ o.cls = c ∧ Act.isSingletonOf m c v = true

/-- What is installed in the place gets into the tables of the class `c`. -/
def Placement.Reaches (place : Placement) (m : Machine) (c : ObjId) : Prop :=
  match place with
  | .method x => x = c
  | .classMethod x => m.Attached c (.obj x)
  | .singletonMethod v => m.Attached c v
  | .moduleFunction x => x = c ∨ m.Attached c (.obj x)

namespace Act

section Places

variable {m : Machine} {c : ObjId} {methods : SymMap Method} {consts : SymMap Value}

theorem rejects_defineBridgedOn (established : m.Established) (frozen : m.Sealed c methods consts)
    {v : Value} (attached : m.Attached c v) (form : Form) (name : String) (n : Nat)
    (aspec : Aspec) : Rejects (defineBridgedOn form v name n aspec) m := by
  obtain ⟨x, o, rfl, present, rfl, own⟩ := attached
  have ran : (singletonClass (.obj x)).run.run m = (.ok o.cls, m) :=
    run_singletonWithin_of_own present own _
  exact .after ran id (rejects_defineBridged established frozen form name n aspec)

/-- A module function for a frozen class is not installed in the class, whether its singleton class
takes the method or not. -/
theorem rejects_moduleFunction (established : m.Established) (grounded : m.Grounded)
    (frozen : m.Sealed c methods consts) (form : Form) (name : String) (n : Nat) (aspec : Aspec) :
    Rejects (defineCallable form (.moduleFunction c) name n aspec) m := by
  rcases run_singletonClass_live established grounded frozen.live with
    ⟨s, made, ran, own, evolution⟩ | ⟨unhealthy, m', endless⟩
  · have steady := evolution.established established
    have still := evolution.keeps_sealed established.tidy rfl nofun nofun frozen
    have healthy := evolution.healthy nofun
    have onSingleton : ∀ {r m'}, (defineBridged form s name n aspec).run.run made = (r, m') →
        (defineBridgedOn form (.obj c) name n aspec).run.run m = (r, m') := by
      intro r m' defined
      rw [defineBridgedOn, run_ok_bind ran, defined]
    obtain ⟨data, isClass⟩ : ∃ data, made.classData? s = some data := by
      cases found : made.classData? s with
      | none => simp [isSingletonOf, found] at own
      | some data => exact ⟨data, rfl⟩
    obtain ⟨o, present, body⟩ := Machine.classData?_eq_some.mp isClass
    cases taken : o.frozen with
    | true =>
        have other : made.Sealed s data.methods data.consts :=
          ⟨o, data, present, taken, body, rfl, rfl⟩
        have rejected := rejects_defineBridged steady other form name n aspec
        exact .bind (.after ran healthy rejected) _
    | false =>
        obtain ⟨p, last, defined⟩ :=
          run_defineBridged_thawed steady.tidy present body taken form name n aspec
        have does := does_defineBridged (m := made) form s name n aspec true steady.tidy
        rw [defined] at does
        have whole : Evolution { founds := true } m last := evolution.trans does.1
        have sound := whole.healthy nofun
        refine .after (onSingleton defined) sound ?_
        exact rejects_defineBridged (whole.established established)
          (whole.keeps_sealed established.tidy rfl nofun nofun frozen) form name n aspec
  · refine .inr ⟨unhealthy, m', ?_⟩
    have first : (defineBridgedOn form (.obj c) name n aspec).run.run m = (.error .endless, m') := by
      rw [defineBridgedOn, run_bind, endless]
    unfold defineCallable
    rw [run_bind, first]

theorem rejects_defineCallable (established : m.Established) (grounded : m.Grounded)
    (frozen : m.Sealed c methods consts) {place : Placement} (reaches : place.Reaches m c)
    (form : Form) (name : String) (n : Nat) (aspec : Aspec) :
    Rejects (defineCallable form place name n aspec) m := by
  cases place with
  | method x =>
      obtain rfl : x = c := reaches
      exact rejects_defineBridged established frozen form name n aspec
  | classMethod x => exact rejects_defineBridgedOn established frozen reaches form name n aspec
  | singletonMethod v => exact rejects_defineBridgedOn established frozen reaches form name n aspec
  | moduleFunction x =>
      rcases reaches with rfl | attached
      · exact rejects_moduleFunction established grounded frozen form name n aspec
      · exact (rejects_defineBridgedOn established frozen attached form name n aspec).bind _

end Places

/-! ## New classes and modules -/

section Naming

variable {m : Machine} {c : ObjId} {methods : SymMap Method} {consts : SymMap Value}

/-- The flag is not looked at. -/
theorem run_putConst (frozen : m.Sealed c methods consts) (s : Sym) (v : Value) :
    ∃ m', (putConst c s v).run.run m = (.ok (), m') ∧ m'.Sealed c methods (consts.insert s v) := by
  obtain ⟨o, data, present, isFrozen, body, rfl, rfl⟩ := frozen
  obtain ⟨cls, flag, ivars, shape⟩ := o
  cases body
  let after : ClassData := { data with consts := data.consts.insert s v }
  refine ⟨_, rfl, ⟨cls, flag, ivars, .class after⟩, after, ?_, isFrozen, rfl, rfl, rfl⟩
  rw [Machine.object?_modify, if_pos rfl, present]
  rfl

theorem run_defineModule_frozen (tidy : m.heap.Tidy) (frozen : m.Sealed c methods consts)
    {name : String} (unbound : m.ownConst? c (m.symbols.intern name).1 = none) :
    ∃ id m', (defineModule c name).run.run m = (.ok id, m') ∧
      m'.Sealed c methods (consts.insert (m.symbols.intern name).1 (.obj id)) := by
  have unbound' : (m.interning [name]).ownConst? c (m.symbols.intern name).1 = none := unbound
  obtain ⟨id, made, ran, still⟩ : ∃ id made, (newClass name none .module).run.run
      (m.interning [name]) = (.ok id, made) ∧ made.Sealed c methods consts := by
    obtain ⟨symbols, s, ran⟩ := run_newClass (m := m.interning [name]) name none .module
    exact ⟨_, _, ran, frozen.of_object? fun o present =>
      Machine.object?_withNew_of_live tidy _ present⟩
  obtain ⟨m', bound, named⟩ := run_putConst still (m.symbols.intern name).1 (.obj id)
  refine ⟨id, m', ?_, named⟩
  unfold defineModule
  rw [run_ok_bind (run_intern name), run_get_bind, unbound']
  dsimp only
  rw [run_ok_bind ran, run_ok_bind bound]
  rfl

/-- A plain class below a plain one is made alive, by an evolution. -/
theorem run_newClass_plain (tidy : m.heap.Tidy) (name : String) {p : ObjId}
    (plain : m.typeOf (.obj p) = .plainClass) :
    ∃ id made, (newClass name (some p) .plain).run.run m = (.ok id, made) ∧
      Evolution { founds := true } m made ∧ made.Live id := by
  obtain ⟨symbols, s, ran⟩ := run_newClass (m := m) name (some p) .plain
  have founding : Does { founds := true } (newClass name (some p) .plain) m fun id m' =>
      m'.Live id := by
    refine does_newClass name rfl (fun v => nofun) (fun _ => ⟨_, rfl, plain⟩) ?_
    intro x same
    cases same
    obtain ⟨o, present⟩ := Machine.live_of_typeOf plain (by decide)
    exact .alive (.of_object? present)
  have founded := founding tidy
  rw [ran] at founded
  exact ⟨_, _, ran, founded⟩

theorem run_defineClass_frozen (established : m.Established) (grounded : m.Grounded)
    (frozen : m.Sealed c methods consts) {name : String} {superclass : Option ObjId}
    (unbound : m.ownConst? c (m.symbols.intern name).1 = none)
    (plain : m.typeOf (.obj (superclass.getD Builtin.object.id)) = .plainClass) :
    (∃ id m', (defineClass c name superclass).run.run m = (.ok id, m') ∧
        m'.Sealed c methods (consts.insert (m.symbols.intern name).1 (.obj id))) ∨
      ¬ m.Healthy ∧ ∃ m', (defineClass c name superclass).run.run m = (.error .endless, m') := by
  have unbound' : (m.interning [name]).ownConst? c (m.symbols.intern name).1 = none := unbound
  have plain' : (m.interning [name]).typeOf (.obj (superclass.getD Builtin.object.id)) =
    .plainClass := plain
  obtain ⟨id, made, ran, founded, live⟩ :=
    run_newClass_plain (m := m.interning [name]) established.tidy name plain'
  have start : Evolution { founds := true } m (m.interning [name]) := .single (.intern name)
  have whole : Evolution { founds := true } m made := start.trans founded
  have still := whole.keeps_sealed established.tidy rfl nofun nofun frozen
  have begun : (defineClass c name superclass).run.run m = (do
      let _ ← singletonClass (.obj id)
      putConst c (m.symbols.intern name).1 (.obj id)
      return id : Act ObjId).run.run made := by
    unfold defineClass
    rw [run_ok_bind (run_intern name), run_get_bind, unbound']
    dsimp only
    rw [if_neg (not_not.mpr plain')]
    exact run_ok_bind ran _
  rw [begun]
  rcases run_singletonClass_live (whole.established established)
      (whole.grounded established.tidy grounded) live with
    ⟨own, last, ran, -, further⟩ | ⟨unhealthy, m', endless⟩
  · obtain ⟨m', bound, named⟩ := run_putConst (further.keeps_sealed
      (whole.tidy established.tidy) rfl nofun nofun still) (m.symbols.intern name).1 (.obj id)
    refine .inl ⟨id, m', ?_, named⟩
    rw [run_ok_bind ran, run_ok_bind bound]
    rfl
  · refine .inr ⟨fun healthy => unhealthy (whole.healthy nofun healthy), m', ?_⟩
    rw [run_bind, endless]

end Naming

end Act

end GuestVM
