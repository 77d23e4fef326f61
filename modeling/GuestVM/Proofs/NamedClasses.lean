import GuestVM.Proofs.Bridge.Rejecting
import GuestVM.Proofs.ModuleFunctions

/-! # Classes and modules under a name

To define a class or a module inside another object is to look whether that has bound the name: what
it is bound to is given or refused, and where it is not bound a new one is made (`Machine.Course`).
What comes of it is bound there, and to define it again gives it again and changes nothing
(`Machine.Binds`), provided that the object is a class, a module or a singleton class: nothing checks
that it is.  Inside anything else the new class is bound nowhere, and there is another new one each
time (`Machine.Strays`). -/
set_option autoImplicit false

namespace GuestVM

/-- A class, perhaps below a given one, or a module. -/
inductive Founding where
  | class (superclass : Option ObjId)
  | module

namespace Founding

def define (f : Founding) (outer : ObjId) (name : String) : Act ObjId :=
  match f with
  | .class superclass => Act.defineClass outer name superclass
  | .module => Act.defineModule outer name

def type : Founding → ValueType
  | .class _ => .plainClass
  | .module => .module

def kind : Founding → ClassKind
  | .class _ => .plain
  | .module => .module

/-- The superclass of what is made. -/
def parent : Founding → Option ObjId
  | .class superclass => some (superclass.getD Builtin.object.id)
  | .module => none

/-- What there is under the name will do: it is a module, or a class and not below another than the
given one. -/
structure Matches (f : Founding) (m : Machine) (id : ObjId) : Prop where
  type : m.typeOf (.obj id) = f.type
  parent : ∀ p, f = .class (some p) → m.superclass? id = some p

/-- Why what there is under the name will not do. -/
def refusal (f : Founding) (m : Machine) (name : String) (bound : Value) : String :=
  match f with
  | .class _ =>
    if m.typeOf bound = .plainClass then "superclass mismatch for class " ++ name
    else name ++ " is not a class"
  | .module => name ++ " is not a module"

end Founding

namespace Machine

/-- The object has bound the name, to what is defined under it, now and when it is defined again. -/
structure Binds (m : Machine) (f : Founding) (outer : ObjId) (name : String) (id : ObjId) :
    Prop where
  own : m.ownConst? outer (m.symbols.intern name).1 = some (.obj id)
  found : (Act.constGet outer name).run.run m = (.ok (.obj id), m)
  again : (f.define outer name).run.run m = (.ok id, m)

/-- The object has not bound the name, and another is defined each time. -/
structure Strays (m : Machine) (f : Founding) (outer : ObjId) (name : String) (id : ObjId) :
    Prop where
  unbound : m.ownConst? outer (m.symbols.intern name).1 = none
  missing : m.Fails (Act.constGet outer name) .nameError ("uninitialized constant " ++ name)
  another : (∃ other m', (f.define outer name).run.run m = (.ok other, m') ∧ other ≠ id ∧
      ¬ m.Live other) ∨
    ¬ m.Healthy ∧ ∃ m', (f.define outer name).run.run m = (.error .endless, m')

variable {m m' : Machine} {f : Founding} {outer id : ObjId} {name : String} {s : Sym}
  {bound : Value}

/-! ## Names that are bound -/

theorem interning_of_check (found : m.symbols.check name = some s) : m.interning [name] = m := by
  have same : (m.symbols.intern name).2 = m.symbols := by
    rw [SymbolTable.intern_of_check found]
  change { m with symbols := (m.symbols.intern name).2 } = m
  rw [same]

/-- Defining begins with the interning of the name, which need not be done twice. -/
theorem run_define_interning (f : Founding) (outer : ObjId) (name : String) :
    (f.define outer name).run.run (m.interning [name]) = (f.define outer name).run.run m := by
  have found := SymbolTable.check_intern m.symbols name
  have sym : ((m.interning [name]).symbols.intern name).1 = (m.symbols.intern name).1 :=
    congrArg Prod.fst (SymbolTable.intern_of_check found)
  have once : (m.interning [name]).interning [name] = m.interning [name] := interning_of_check found
  cases f with
  | «class» superclass =>
      change (Act.defineClass outer name superclass).run.run _ =
        (Act.defineClass outer name superclass).run.run m
      unfold Act.defineClass
      rw [Act.run_ok_bind (Act.run_intern name), Act.run_ok_bind (Act.run_intern name), sym, once]
  | module =>
      change (Act.defineModule outer name).run.run _ = (Act.defineModule outer name).run.run m
      unfold Act.defineModule
      rw [Act.run_ok_bind (Act.run_intern name), Act.run_ok_bind (Act.run_intern name), sym, once]

theorem run_define_bound (own : m.ownConst? outer (m.symbols.intern name).1 = some (.obj id))
    (matching : f.Matches m id) :
    (f.define outer name).run.run m = (.ok id, m.interning [name]) := by
  have own' : (m.interning [name]).ownConst? outer (m.symbols.intern name).1 = some (.obj id) := own
  cases f with
  | «class» superclass =>
      have plain : (m.interning [name]).typeOf (.obj id) = .plainClass := matching.type
      change (Act.defineClass outer name superclass).run.run m = _
      unfold Act.defineClass
      rw [Act.run_ok_bind (Act.run_intern name), Act.run_get_bind, own']
      dsimp only
      rw [if_neg (not_not.mpr plain), Act.run_ok_bind (Act.run_expectClass (by rw [plain]; rfl))]
      cases superclass with
      | none => rfl
      | some p =>
          have below : (m.interning [name]).superclass? id = some p := matching.parent p rfl
          dsimp only
          rw [if_neg (not_not.mpr below)]
          rfl
  | module =>
      have isModule : (m.interning [name]).typeOf (.obj id) = .module := matching.type
      change (Act.defineModule outer name).run.run m = _
      unfold Act.defineModule
      rw [Act.run_ok_bind (Act.run_intern name), Act.run_get_bind, own']
      dsimp only
      rw [if_neg (not_not.mpr isModule)]
      exact Act.run_expectClass (by rw [isModule]; rfl)

theorem run_define_refused (own : m.ownConst? outer (m.symbols.intern name).1 = some bound)
    (other : ∀ id, bound = .obj id → ¬ f.Matches m id) :
    (f.define outer name).run.run m =
      (Act.fail .typeError (f.refusal m name bound) : Act ObjId).run.run (m.interning [name]) := by
  have own' : (m.interning [name]).ownConst? outer (m.symbols.intern name).1 = some bound := own
  cases f with
  | «class» superclass =>
      change (Act.defineClass outer name superclass).run.run m = _
      unfold Act.defineClass
      rw [Act.run_ok_bind (Act.run_intern name), Act.run_get_bind, own']
      dsimp only
      by_cases type : (m.interning [name]).typeOf bound = .plainClass
      · have plain : m.typeOf bound = .plainClass := type
        obtain ⟨id, rfl⟩ : ∃ id, bound = .obj id := by
          cases bound with
          | obj id => exact ⟨id, rfl⟩
          | bool b => cases b <;> cases plain
          | _ => cases plain
        have isClass : ((m.interning [name]).typeOf (.obj id)).isClassLike = true := by
          rw [type]
          rfl
        rw [if_neg (not_not.mpr type), Act.run_ok_bind (Act.run_expectClass isClass)]
        cases superclass with
        | none => exact absurd ⟨plain, nofun⟩ (other id rfl)
        | some p =>
            have mismatch : (m.interning [name]).superclass? id ≠ some p := by
              intro below
              refine other id rfl ⟨plain, fun q same => ?_⟩
              cases same
              exact below
            dsimp only
            rw [if_pos mismatch, Act.run_fail_bind, Founding.refusal, if_pos plain]
      · have noClass : ¬ m.typeOf bound = .plainClass := type
        rw [if_pos type, Act.run_fail_bind, Founding.refusal, if_neg noClass]
  | module =>
      change (Act.defineModule outer name).run.run m = _
      unfold Act.defineModule
      rw [Act.run_ok_bind (Act.run_intern name), Act.run_get_bind, own']
      dsimp only
      have type : (m.interning [name]).typeOf bound ≠ .module := by
        intro type
        have type : m.typeOf bound = .module := type
        cases bound with
        | obj id => exact other id rfl ⟨type, nofun⟩
        | bool b => cases b <;> cases type
        | _ => cases type
      rw [if_pos type, Act.run_fail_bind]
      rfl

theorem run_constGet_own (check : m.symbols.check name = some s)
    (own : m.ownConst? outer s = some bound) :
    (Act.constGet outer name).run.run m = (.ok bound, m) := by
  have found : m.lookupConst? outer name = some (some bound) := by
    obtain ⟨data, isClass, row⟩ := Option.bind_eq_some_iff.mp own
    have here : m.constAt s outer = some (some bound) := by
      simp only [constAt, isClass, row, Option.map_some]
    simp only [lookupConst?, check, Ascent.climb (.found here), Option.map_some, Option.getD_some]
  unfold Act.constGet
  rw [Act.run_get_bind, found]
  rfl

theorem binds_of_own (check : m.symbols.check name = some s)
    (own : m.ownConst? outer s = some (.obj id)) (matching : f.Matches m id) :
    m.Binds f outer name id := by
  have own' : m.ownConst? outer (m.symbols.intern name).1 = some (.obj id) := by
    rwa [SymbolTable.intern_of_check check]
  refine ⟨own', run_constGet_own check own, ?_⟩
  rw [run_define_bound own' matching, interning_of_check check]

/-! ## Names that are not bound -/

theorem typeOf_of_kind {data : ClassData} (found : m.classData? id = some data)
    (kind : data.kind = f.kind) : m.typeOf (.obj id) = f.type := by
  obtain ⟨o, present, body⟩ := classData?_eq_some.mp found
  simp only [typeOf_obj present, Object.tag, body, kind]
  cases f <;> rfl

/-- The class or module is new in `made`, and what there was before is as it was. -/
structure Founds (m : Machine) (f : Founding) (id : ObjId) (made : Machine) : Prop where
  fresh : ¬ m.Live id
  type : made.typeOf (.obj id) = f.type
  parent : made.superclass? id = f.parent
  reclasses : m.Reclasses made

theorem Founds.live (founds : m.Founds f id m') : m'.Live id := by
  obtain ⟨o, present⟩ := live_of_typeOf founds.type (by cases f <;> exact nofun)
  exact .of_object? present

theorem Founds.later (founds : m.Founds f id m') {made : Machine} (same : m'.Reclasses made) :
    m.Founds f id made := by
  have typed := (same.typeOf_eq founds.live).trans founds.type
  refine ⟨founds.fresh, typed, ?_, founds.reclasses.trans same⟩
  rw [superclass?, same.classData?_eq founds.live, ← superclass?, founds.parent]

theorem run_newClass_founds (name : String) (tidy : m.heap.Tidy)
    (does : Act.Does { founds := true } (Act.newClass name f.parent f.kind) m fun id m' =>
      m'.Live id) :
    ∃ id made, (Act.newClass name f.parent f.kind).run.run m = (.ok id, made) ∧
      Evolution { founds := true } m made ∧ made.Live id ∧ m.Founds f id made := by
  obtain ⟨symbols, s, ran⟩ := Act.run_newClass (m := m) name f.parent f.kind
  let o := Act.classObject s f.parent f.kind
  let renamed : Machine := { m with symbols := symbols }
  have founded := does tidy
  rw [ran] at founded
  have present : (renamed.withNew o).object? (renamed.newId o) = some o :=
    (object?_withNew (m := renamed) tidy o _).trans (if_pos rfl)
  have isClass : (renamed.withNew o).classData? (renamed.newId o) =
      some { name := s, superclass := f.parent, kind := f.kind } :=
    classData?_eq_some.mpr ⟨o, present, rfl⟩
  refine ⟨_, _, ran, founded.1, founded.2, fun live => ne_newId (m := renamed) tidy o live rfl,
    typeOf_of_kind isClass rfl, ?_, ?_⟩
  · rw [superclass?, isClass]
    rfl
  · exact fun x p before => ⟨p.cls, object?_withNew_of_live (m := renamed) tidy o before⟩

/-- The machine with a constant put into what is perhaps a class. -/
def naming (m : Machine) (outer : ObjId) (s : Sym) (id : ObjId) : Machine :=
  { m with heap := m.heap.modify outer (Object.mapClass fun data =>
      { data with consts := data.consts.insert s (.obj id) }) }

/-- A new class or module is made and then bound, if that can be. -/
def MakesUnder (m : Machine) (f : Founding) (outer : ObjId) (name : String) : Prop :=
  ∃ id made, (f.define outer name).run.run m =
      (.ok id, made.naming outer (m.symbols.intern name).1 id) ∧ m.Founds f id made ∧
    Evolution { founds := true } (m.interning [name]) made

theorem makesUnder_module (tidy : m.heap.Tidy)
    (unbound : m.ownConst? outer (m.symbols.intern name).1 = none) :
    m.MakesUnder .module outer name := by
  have unbound' : (m.interning [name]).ownConst? outer (m.symbols.intern name).1 = none := unbound
  obtain ⟨id, made, ran, evolution, -, founds⟩ := run_newClass_founds (m := m.interning [name])
    (f := .module) name tidy (Act.does_newClass name rfl (fun _ => nofun) nofun nofun)
  have ran : (Act.newClass name none .module).run.run (m.interning [name]) = (.ok id, made) := ran
  refine ⟨id, made, ?_, ⟨founds.fresh, founds.type, founds.parent, founds.reclasses⟩, evolution⟩
  change (Act.defineModule outer name).run.run m = _
  unfold Act.defineModule
  rw [Act.run_ok_bind (Act.run_intern name), Act.run_get_bind, unbound']
  dsimp only
  rw [Act.run_ok_bind ran]
  rfl

theorem makesUnder_class (established : m.Established) (grounded : m.Grounded)
    (unbound : m.ownConst? outer (m.symbols.intern name).1 = none) {superclass : Option ObjId}
    (plain : m.typeOf (.obj (superclass.getD Builtin.object.id)) = .plainClass) :
    m.MakesUnder (.class superclass) outer name ∨
      ¬ m.Healthy ∧ ∃ m', (Act.defineClass outer name superclass).run.run m =
        (.error .endless, m') := by
  have unbound' : (m.interning [name]).ownConst? outer (m.symbols.intern name).1 = none := unbound
  have plain' : (m.interning [name]).typeOf (.obj (superclass.getD Builtin.object.id)) =
    .plainClass := plain
  obtain ⟨o, present⟩ := live_of_typeOf plain' (by decide)
  obtain ⟨id, made, ran, evolution, live, founds⟩ :=
    run_newClass_founds (m := m.interning [name]) (f := .class superclass) name
      established.tidy (Act.does_newClass name rfl (fun _ => nofun) (fun _ => ⟨_, rfl, plain'⟩)
        fun x same => .alive (Option.some.inj same ▸ .of_object? present))
  have start : Evolution { founds := true } m (m.interning [name]) := .single (.intern name)
  have whole : Evolution { founds := true } m made := start.trans evolution
  have begun : (Act.defineClass outer name superclass).run.run m = (do
      let _ ← Act.singletonClass (.obj id)
      Act.putConst outer (m.symbols.intern name).1 (.obj id)
      return id : Act ObjId).run.run made := by
    unfold Act.defineClass
    rw [Act.run_ok_bind (Act.run_intern name), Act.run_get_bind, unbound']
    dsimp only
    rw [if_neg (not_not.mpr plain')]
    exact Act.run_ok_bind ran _
  rcases Act.run_singletonClass_live (whole.established established)
      (whole.grounded established.tidy grounded) live with
    ⟨own, last, single, -, further⟩ | ⟨unhealthy, m', endless⟩
  · have tidy := whole.tidy established.tidy
    have founds : m.Founds (.class superclass) id made :=
      ⟨founds.fresh, founds.type, founds.parent, founds.reclasses⟩
    have same := (Act.obtains_of_singletonClass tidy single).reclasses tidy
    refine .inl ⟨id, last, ?_, founds.later same, evolution.trans further⟩
    change (Act.defineClass outer name superclass).run.run m = _
    rw [begun, Act.run_ok_bind single]
    rfl
  · refine .inr ⟨fun healthy => unhealthy (whole.healthy nofun healthy), m', ?_⟩
    rw [begun, Act.run_bind, endless]

theorem makesUnder (established : m.Established) (grounded : m.Grounded)
    (unbound : m.ownConst? outer (m.symbols.intern name).1 = none)
    (plain : ∀ p, f.parent = some p → m.typeOf (.obj p) = .plainClass) :
    m.MakesUnder f outer name ∨
      ¬ m.Healthy ∧ ∃ m', (f.define outer name).run.run m = (.error .endless, m') := by
  cases f with
  | «class» superclass => exact makesUnder_class established grounded unbound (plain _ rfl)
  | module => exact .inl (makesUnder_module established.tidy unbound)

/-- What is not put below a plain class is not made. -/
theorem run_define_parentless (unbound : m.ownConst? outer (m.symbols.intern name).1 = none)
    {p : ObjId} (parent : f.parent = some p) (other : m.typeOf (.obj p) ≠ .plainClass) :
    (f.define outer name).run.run m = (Act.fail .typeError "superclass must be a Class" :
      Act ObjId).run.run (m.interning [name]) := by
  have unbound' : (m.interning [name]).ownConst? outer (m.symbols.intern name).1 = none := unbound
  cases f with
  | «class» superclass =>
      have other' : (m.interning [name]).typeOf (.obj (superclass.getD Builtin.object.id)) ≠
        .plainClass := Option.some.inj parent ▸ other
      change (Act.defineClass outer name superclass).run.run m = _
      unfold Act.defineClass
      rw [Act.run_ok_bind (Act.run_intern name), Act.run_get_bind, unbound']
      dsimp only
      rw [if_pos other', Act.run_fail_bind]
  | module => cases parent

/-! ## After a definition -/

theorem classData?_naming (x : ObjId) : (m.naming outer s id).classData? x =
    if x = outer then (m.classData? x).map fun data =>
      { data with consts := data.consts.insert s (.obj id) } else m.classData? x :=
  classData?_modify_mapClass outer _ x

theorem superclass?_naming (x : ObjId) :
    (m.naming outer s id).superclass? x = m.superclass? x := by
  rw [superclass?, superclass?, classData?_naming]
  split
  · cases m.classData? x <;> rfl
  · rfl

theorem typeOf_naming (v : Value) : (m.naming outer s id).typeOf v = m.typeOf v := by
  cases v with
  | obj x =>
      rw [typeOf, typeOf, naming, object?_modify]
      split
      · cases m.object? x with
        | none => rfl
        | some o =>
            simp only [Option.map_some, Option.getD_some]
            exact Object.tag_mapClass o fun _ => rfl
      · rfl
  | bool b => cases b <;> rfl
  | _ => rfl

theorem check_naming {made : Machine}
    (evolution : Evolution { founds := true } (m.interning [name]) made) :
    (made.naming outer s id).symbols.check name = some (m.symbols.intern name).1 :=
  evolution.check (SymbolTable.check_intern m.symbols name)

theorem Founds.matches {made : Machine} (founds : m.Founds f id made) :
    f.Matches (made.naming outer s id) id := by
  refine ⟨(typeOf_naming _).trans founds.type, fun p same => ?_⟩
  rw [superclass?_naming, founds.parent, same]
  rfl

theorem Founds.typeOf_eq {made : Machine} (founds : m.Founds f id made) {x : ObjId}
    (live : m.Live x) : (made.naming outer s id).typeOf (.obj x) = m.typeOf (.obj x) :=
  (typeOf_naming _).trans (founds.reclasses.typeOf_eq live)

/-- In a class, a module or a singleton class the new one is bound. -/
theorem Founds.binds {made : Machine} (founds : m.Founds f id made)
    (check : (made.naming outer s id).symbols.check name = some s)
    (isClass : ((made.naming outer s id).typeOf (.obj outer)).isClassLike = true) :
    (made.naming outer s id).Binds f outer name id := by
  refine binds_of_own check ?_ founds.matches
  rw [typeOf_naming, ← classData?_isSome, Option.isSome_iff_exists] at isClass
  obtain ⟨data, found⟩ := isClass
  rw [ownConst?, classData?_naming, if_pos rfl, found]
  exact SymMap.get?_insert_self _ s _

/-- What is no class has no constants and takes none. -/
theorem nothing_of_noClass (noClass : (m.typeOf (.obj outer)).isClassLike = false) :
    m.classData? outer = none := by
  rwa [← classData?_isSome, Option.isSome_eq_false_iff, Option.isNone_iff_eq_none] at noClass

theorem unbound_of_noClass (noClass : (m.typeOf (.obj outer)).isClassLike = false) (s : Sym) :
    m.ownConst? outer s = none := by
  rw [ownConst?, nothing_of_noClass noClass]
  rfl

theorem naming_of_noClass (noClass : (m.typeOf (.obj outer)).isClassLike = false) :
    m.naming outer s id = m := by
  have same : m.heap.modify outer (Object.mapClass fun data =>
      { data with consts := data.consts.insert s (.obj id) }) = m.heap := by
    refine (Heap.modify_congr fun o live => ?_).trans (Heap.modify_id m.heap outer)
    obtain ⟨cls, frozen, ivars, body⟩ := o
    cases body with
    | «class» data =>
        cases (nothing_of_noClass noClass).symm.trans (classData?_eq_some.mpr ⟨_, live, rfl⟩)
    | _ => rfl
  rw [naming, same]

theorem Established.constGet_of_noClass (established : m.Established)
    (noClass : (m.typeOf (.obj outer)).isClassLike = false) (name : String) :
    m.Fails (Act.constGet outer name) .nameError ("uninitialized constant " ++ name) := by
  have nothing := nothing_of_noClass noClass
  have missing : m.lookupConst? outer name = some none := by
    unfold lookupConst?
    split
    case h_1 s _ =>
        have here : m.constAt s outer = some none := by
          simp only [constAt, nothing]
        rw [Ascent.climb (.found here)]
        rfl
    case h_2 => rfl
  refine established.fails ?_
  unfold Act.constGet
  rw [Act.run_get_bind, missing]
  rfl

/-- In anything else it is not, and another is made where nothing else is in the way. -/
theorem Founds.strays (founds : m.Founds f id m') (established : m'.Established)
    (grounded : m'.Grounded) (noClass : (m'.typeOf (.obj outer)).isClassLike = false)
    (plain : ∀ p, f.parent = some p → m.typeOf (.obj p) = .plainClass) :
    m'.Strays f outer name id := by
  have unbound := unbound_of_noClass noClass (m'.symbols.intern name).1
  refine ⟨unbound, established.constGet_of_noClass noClass name, ?_⟩
  have still : ∀ p, f.parent = some p → m'.typeOf (.obj p) = .plainClass := by
    intro p parent
    obtain ⟨o, present⟩ := live_of_typeOf (plain p parent) (by decide)
    exact (founds.reclasses.typeOf_eq (.of_object? present)).trans (plain p parent)
  rcases makesUnder established grounded unbound still with ⟨other, made, ran, new, -⟩ | endless
  · refine .inl ⟨other, _, ran, ?_, new.fresh⟩
    rintro rfl
    exact new.fresh founds.live
  · exact .inr endless

/-! ## Definitions -/

/-- The ways a definition can go. -/
inductive Course (m : Machine) (f : Founding) (outer : ObjId) (name : String) : Prop where
  | given (id : ObjId) (own : m.ownConst? outer (m.symbols.intern name).1 = some (.obj id))
      (matching : f.Matches m id)
      (ran : (f.define outer name).run.run m = (.ok id, m.interning [name]))
  | refused (bound : Value) (own : m.ownConst? outer (m.symbols.intern name).1 = some bound)
      (other : ∀ id, bound = .obj id → ¬ f.Matches m id)
      (fails : (m.interning [name]).Fails (f.define outer name) .typeError (f.refusal m name bound))
  | parentless (p : ObjId) (unbound : m.ownConst? outer (m.symbols.intern name).1 = none)
      (parent : f.parent = some p) (other : m.typeOf (.obj p) ≠ .plainClass)
      (fails : (m.interning [name]).Fails (f.define outer name) .typeError
        "superclass must be a Class")
  | makes (unbound : m.ownConst? outer (m.symbols.intern name).1 = none)
      (plain : ∀ p, f.parent = some p → m.typeOf (.obj p) = .plainClass)
      (made : m.MakesUnder f outer name)
  | endless (unbound : m.ownConst? outer (m.symbols.intern name).1 = none)
      (plain : ∀ p, f.parent = some p → m.typeOf (.obj p) = .plainClass) (unhealthy : ¬ m.Healthy)
      (m' : Machine) (ran : (f.define outer name).run.run m = (.error .endless, m'))

theorem course (established : m.Established) (grounded : m.Grounded) (f : Founding)
    (outer : ObjId) (name : String) : m.Course f outer name := by
  have interned : Evolution {} m (m.interning [name]) := .single (.intern name)
  have established' := interned.established established
  have fails : ∀ {message : String}, (f.define outer name).run.run m =
      (Act.fail .typeError message : Act ObjId).run.run (m.interning [name]) →
        (m.interning [name]).Fails (f.define outer name) .typeError message := fun ran =>
    established'.fails ((run_define_interning f outer name).trans ran)
  cases own : m.ownConst? outer (m.symbols.intern name).1 with
  | some bound =>
      by_cases matching : ∃ id, bound = .obj id ∧ f.Matches m id
      · obtain ⟨id, rfl, matching⟩ := matching
        exact .given id own matching (run_define_bound own matching)
      · have other : ∀ id, bound = .obj id → ¬ f.Matches m id := fun id same matches_ =>
          matching ⟨id, same, matches_⟩
        exact .refused bound own other (fails (run_define_refused own other))
  | none =>
      by_cases plain : ∀ p, f.parent = some p → m.typeOf (.obj p) = .plainClass
      · rcases makesUnder established grounded own plain with made | ⟨unhealthy, m', ran⟩
        · exact .makes own plain made
        · exact .endless own plain unhealthy m' ran
      · push Not at plain
        obtain ⟨p, parent, other⟩ := plain
        exact .parentless p own parent other (fails (run_define_parentless own parent other))

/-- What was there is found, or it is made. -/
theorem Course.of_ok (course : m.Course f outer name)
    (ran : (f.define outer name).run.run m = (.ok id, m')) :
    (m.ownConst? outer (m.symbols.intern name).1 = some (.obj id) ∧ f.Matches m id ∧
        m' = m.interning [name]) ∨
      (∀ p, f.parent = some p → m.typeOf (.obj p) = .plainClass) ∧
        ∃ made, m' = made.naming outer (m.symbols.intern name).1 id ∧ m.Founds f id made ∧
          Evolution { founds := true } (m.interning [name]) made := by
  have failed : ∀ {message : String},
      ¬ (m.interning [name]).Fails (f.define outer name) .typeError message := by
    rintro message ⟨e, last, x, raised, -⟩
    rw [run_define_interning, ran] at raised
    cases raised
  cases course with
  | given x own matching found =>
      cases ran.symm.trans found
      exact .inl ⟨own, matching, rfl⟩
  | refused _ _ _ fails => exact absurd fails failed
  | parentless _ _ _ _ fails => exact absurd fails failed
  | makes _ plain made =>
      obtain ⟨x, made, new, founds, evolution⟩ := made
      cases ran.symm.trans new
      exact .inr ⟨plain, made, rfl, founds, evolution⟩
  | endless _ _ _ _ endless => cases ran.symm.trans endless

/-- What comes of a definition. -/
structure Defines (m : Machine) (f : Founding) (outer : ObjId) (name : String) : Prop where
  course : m.Course f outer name
  binds : ∀ id m', (f.define outer name).run.run m = (.ok id, m') →
    (m'.typeOf (.obj outer)).isClassLike = true → m'.Binds f outer name id
  strays : ∀ id m', (f.define outer name).run.run m = (.ok id, m') →
    (m'.typeOf (.obj outer)).isClassLike = false → m'.Strays f outer name id
  /-- A definition makes no class of what was something else. -/
  steady : ∀ id m', (f.define outer name).run.run m = (.ok id, m') → m.Live outer →
    m'.typeOf (.obj outer) = m.typeOf (.obj outer)
  /-- What is bound stays bound, and is what the definition gives if it gives anything. -/
  kept : ∀ bound r m', m.ownConst? outer (m.symbols.intern name).1 = some bound →
    (f.define outer name).run.run m = (r, m') →
    m'.ownConst? outer (m.symbols.intern name).1 = some bound ∧ ∀ id, r = .ok id → bound = .obj id

theorem Course.steady (course : m.Course f outer name)
    (ran : (f.define outer name).run.run m = (.ok id, m')) (live : m.Live outer) :
    m'.typeOf (.obj outer) = m.typeOf (.obj outer) := by
  rcases course.of_ok ran with ⟨-, -, rfl⟩ | ⟨-, made, rfl, founds, -⟩
  · rfl
  · exact founds.typeOf_eq live

theorem Course.binds (course : m.Course f outer name)
    (ran : (f.define outer name).run.run m = (.ok id, m'))
    (isClass : (m'.typeOf (.obj outer)).isClassLike = true) : m'.Binds f outer name id := by
  rcases course.of_ok ran with ⟨own, matching, rfl⟩ | ⟨-, made, rfl, founds, evolution⟩
  · have check := SymbolTable.check_intern m.symbols name
    exact binds_of_own check own ⟨matching.type, matching.parent⟩
  · exact founds.binds (check_naming evolution) isClass

theorem Course.strays (course : m.Course f outer name) (established : m.Established)
    (grounded : m.Grounded) (ran : (f.define outer name).run.run m = (.ok id, m'))
    (noClass : (m'.typeOf (.obj outer)).isClassLike = false) : m'.Strays f outer name id := by
  rcases course.of_ok ran with ⟨own, -, rfl⟩ | ⟨plain, made, rfl, founds, evolution⟩
  · cases own.symm.trans (unbound_of_noClass noClass _)
  · have interned : Evolution { founds := true } m (m.interning [name]) := .single (.intern name)
    have whole : Evolution { founds := true } m made := interned.trans evolution
    rw [typeOf_naming] at noClass
    rw [naming_of_noClass noClass]
    exact founds.strays (whole.established established) (whole.grounded established.tidy grounded)
      noClass plain

theorem Course.kept (course : m.Course f outer name)
    {r : Except Halt ObjId} (own : m.ownConst? outer (m.symbols.intern name).1 = some bound)
    (ran : (f.define outer name).run.run m = (r, m')) :
    m'.ownConst? outer (m.symbols.intern name).1 = some bound ∧
      ∀ id, r = .ok id → bound = .obj id := by
  cases course with
  | given x found _ result =>
      cases own.symm.trans found
      cases ran.symm.trans result
      exact ⟨own, fun id same => by cases same; rfl⟩
  | refused _ _ _ fails =>
      obtain ⟨e, last, x, raised, unharmed, -⟩ := fails
      rw [run_define_interning] at raised
      cases ran.symm.trans raised
      refine ⟨?_, fun id => nofun⟩
      have apart : outer ≠ x := by
        rintro rfl
        have nothing : m.classData? outer = none := by
          simp [classData?, show m.object? outer = none from unharmed.dead]
        simp [ownConst?, nothing] at own
      have same : m'.classData? outer = m.classData? outer := by
        rw [classData?, classData?, unharmed.objects outer apart]
        rfl
      rw [ownConst?, same]
      exact own
  | parentless _ unbound => cases own.symm.trans unbound
  | makes unbound => cases own.symm.trans unbound
  | endless unbound => cases own.symm.trans unbound

theorem defines (established : m.Established) (grounded : m.Grounded) (f : Founding)
    (outer : ObjId) (name : String) : m.Defines f outer name :=
  have course := course established grounded f outer name
  ⟨course, fun _ _ => course.binds, fun _ _ => course.strays established grounded,
    fun _ _ => course.steady, fun _ _ _ => course.kept⟩

end Machine

namespace Situation

attribute [local irreducible] Machine.opened

variable {now : Situation} {name : String} {i : Instance}

/-- In a class, a module or a singleton class a definition is bound, and what is bound stays; in
anything else a new class is lost. -/
theorem named_definitions (run : Run Anything {} now) (present : now.world.instance? name = some i)
    (f : Founding) (outer : ObjId) (text : String) :
    i.machine.Defines f outer text ∧ (Run Careful {} now → i.machine.Healthy) := by
  have grounded := (grounded_of_run run present).2
  refine ⟨Machine.defines (run.established present) grounded f outer text, fun careful => ?_⟩
  obtain ⟨tidy, closed, rooted⟩ := Run.rooted careful present
  exact ⟨tidy, closed, rooted⟩

/-! ## A module in a plain object -/

def makingPlain : Script := .guest (.objectNew Builtin.object.id) fun _ => Script.ret .nil

/-- The slot after those that a new machine fills. -/
def plainId : ObjId := ⟨62⟩

/-- Defined twice, the module is another the second time, and the object has bound neither. -/
theorem named_definitions_plain : ∃ now i first m' second m'', Run Careful {} now ∧
    now.world.instance? "vm" = some i ∧ i.machine.typeOf (.obj plainId) = .object ∧
      (Act.defineModule plainId "Inner").run.run i.machine = (.ok first, m') ∧
      m'.Strays .module plainId "Inner" first ∧
      (Act.defineModule plainId "Inner").run.run m' = (.ok second, m'') ∧ second ≠ first := by
  have replayed : ((carefully 1 ⟨makingPlain, [], { machine := .opened ⟨1⟩ {} }⟩).any fun a =>
      decide (a.stage.machine.typeOf (.obj plainId) = .object)) = true := by
    rw [Machine.opened_eq]
    decide +kernel
  obtain ⟨a, reached, holds⟩ := (Option.any_eq_true _ _).mp replayed
  have plain := of_decide_eq_true holds
  have run := run_carefully_beginning reached
  have noClass : (a.stage.machine.typeOf (.obj plainId)).isClassLike = false := by
    rw [plain]
    rfl
  obtain ⟨o, there⟩ := Machine.live_of_typeOf plain (by decide)
  obtain ⟨defines, healthy⟩ := named_definitions (run.mono fun _ _ _ => trivial)
    (World.instance?_put_self _) .module plainId "Inner"
  have unbound := Machine.unbound_of_noClass noClass
  cases defines.course with
  | given _ own => cases own.symm.trans (unbound _)
  | refused _ own => cases own.symm.trans (unbound _)
  | parentless _ _ parent => cases parent
  | endless _ _ unhealthy => exact absurd (healthy run) unhealthy
  | makes _ _ made =>
      obtain ⟨first, made, ran, -, evolution⟩ := made
      have still := (defines.steady _ _ ran (.of_object? there)).trans plain
      have outside : (made.typeOf (.obj plainId)).isClassLike = false := by
        rw [← Machine.typeOf_naming, still]
        rfl
      rw [Machine.naming_of_noClass outside] at ran
      have strays := defines.strays _ _ ran outside
      rcases strays.another with ⟨second, last, again, other, -⟩ | ⟨unhealthy, -⟩
      · exact ⟨_, _, first, made, second, last, run, World.instance?_put_self _, plain, ran, strays,
          again, other⟩
      · have interned : Evolution {} a.stage.machine (a.stage.machine.interning ["Inner"]) :=
          .single (.intern "Inner")
        exact absurd (evolution.healthy nofun (interned.healthy nofun (healthy run))) unhealthy

end Situation

end GuestVM
