import GuestVM.Proofs.Machine.Containing

/-! # What definitions do

Classes, singleton classes, methods, constants and variables, and the operations on plain objects
and on the collector.  A definition writes a table of a live class, and what it enters there was
handed over, has just been made, or was in a table already. -/
set_option autoImplicit false

namespace GuestVM

/-! ## Tables -/

namespace SymMap

variable {α : Type}

theorem mem_values_insert {table : SymMap α} {s : Sym} {a b : α}
    (member : b ∈ (table.insert s a).values) : b = a ∨ b ∈ table.values := by
  simp only [insert, values, List.map_cons, List.mem_cons, List.mem_map] at member ⊢
  rcases member with new | ⟨row, kept, equation⟩
  · exact .inl new
  · exact .inr ⟨row, List.mem_of_mem_filter kept, equation⟩

theorem mem_values_erase {table : SymMap α} {s : Sym} {b : α}
    (member : b ∈ (table.erase s).values) : b ∈ table.values := by
  simp only [erase, values, List.mem_map] at member ⊢
  obtain ⟨row, kept, equation⟩ := member
  exact ⟨row, List.mem_of_mem_filter kept, equation⟩

theorem mem_values_of_get? {table : SymMap α} {s : Sym} {a : α} (found : table.get? s = some a) :
    a ∈ table.values := by
  obtain ⟨before, after, rows, -⟩ := List.lookup_eq_some_iff.mp found
  simp [values, rows]

end SymMap

namespace SymbolTable

theorem check_intern (t : SymbolTable) (name : String) :
    (t.intern name).2.check name = some (t.intern name).1 := by
  unfold intern
  cases found : t.check name with
  | some s => exact found
  | none =>
      have absent : name ∉ t.names := by simpa [check] using found
      obtain ⟨⟨names⟩⟩ := t
      simp only [check, Option.map_eq_some_iff, List.push_toArray, List.idxOf?_toArray]
      have nowhere : names.findIdx? (· == name) = none := by
        rw [List.findIdx?_eq_none_iff]
        intro other member
        simpa using fun same : other = name => absent (by simpa [← same] using member)
      refine ⟨names.length, ?_, rfl⟩
      rw [List.idxOf?, List.findIdx?_append, nowhere]
      simp

theorem intern_of_check {t : SymbolTable} {name : String} {s : Sym} (found : t.check name = some s) :
    t.intern name = (s, t) := by
  unfold intern
  rw [found]

end SymbolTable

namespace ClassData

theorem mem_references {c : ClassData} {x : ObjId} :
    x ∈ c.references ↔ c.superclass = some x ∨ (∃ method ∈ c.methods.values, method.proc = x) ∨
      .obj x ∈ c.consts.values ∨ c.kind = .singleton (.obj x) := by
  cases kind : c.kind with
  | singleton v =>
      simp only [references, kind, List.mem_append, Option.mem_toList, List.mem_map,
        Value.mem_objects, List.mem_singleton, ClassKind.singleton.injEq]
      rw [or_assoc, or_assoc, eq_comm (a := v)]
  | _ =>
      simp only [references, kind, List.mem_append, Option.mem_toList, List.mem_map,
        Value.mem_objects, List.not_mem_nil, or_false, reduceCtorEq]
      rw [or_assoc]

/-- Where only the tables of a class are others, a new reference stands in one of them. -/
theorem mem_references_of_tables {c : ClassData} {methods : SymMap Method} {consts : SymMap Value}
    {x : ObjId} (member : x ∈ ({ c with methods, consts } : ClassData).references) :
    x ∈ c.references ∨ (∃ method ∈ methods.values, method.proc = x) ∨ .obj x ∈ consts.values := by
  rcases mem_references.mp member with parent | method | const | attached
  · exact .inl (mem_references.mpr (.inl parent))
  · exact .inr (.inl method)
  · exact .inr (.inr const)
  · exact .inl (mem_references.mpr (.inr (.inr (.inr attached))))

theorem mem_references_insertMethod {c : ClassData} {mid : Sym} {method : Method} {x : ObjId}
    (member : x ∈ ({ c with methods := c.methods.insert mid method } : ClassData).references) :
    x ∈ c.references ∨ x = method.proc := by
  rcases mem_references_of_tables member with old | ⟨row, inside, rfl⟩ | const
  · exact .inl old
  · rcases SymMap.mem_values_insert inside with rfl | old
    · exact .inr rfl
    · exact .inl (mem_references.mpr (.inr (.inl ⟨row, old, rfl⟩)))
  · exact .inl (mem_references.mpr (.inr (.inr (.inl const))))

theorem mem_references_eraseMethod {c : ClassData} {mid : Sym} {x : ObjId}
    (member : x ∈ ({ c with methods := c.methods.erase mid } : ClassData).references) :
    x ∈ c.references := by
  rcases mem_references_of_tables member with old | ⟨row, inside, rfl⟩ | const
  · exact old
  · exact mem_references.mpr (.inr (.inl ⟨row, SymMap.mem_values_erase inside, rfl⟩))
  · exact mem_references.mpr (.inr (.inr (.inl const)))

theorem mem_references_insertConst {c : ClassData} {s : Sym} {v : Value} {x : ObjId}
    (member : x ∈ ({ c with consts := c.consts.insert s v } : ClassData).references) :
    x ∈ c.references ∨ .obj x = v := by
  rcases mem_references_of_tables member with old | method | const
  · exact .inl old
  · exact .inl (mem_references.mpr (.inr (.inl method)))
  · rcases SymMap.mem_values_insert const with given | old
    · exact .inr given
    · exact .inl (mem_references.mpr (.inr (.inr (.inl old))))

end ClassData

namespace Object

/-- A proc with its data changed; any other object stays as it is. -/
def mapProc (f : ProcData → ProcData) (o : Object) : Object :=
  match o.body with
  | .proc p => { o with body := .proc (f p) }
  | _ => o

/-- A class with its data changed; any other object stays as it is. -/
def mapClass (f : ClassData → ClassData) (o : Object) : Object :=
  match o.body with
  | .class data => { o with body := .class (f data) }
  | _ => o

def classData? (o : Object) : Option ClassData :=
  match o.body with
  | .class data => some data
  | _ => none

theorem classData?_eq_some {o : Object} {data : ClassData} :
    o.classData? = some data ↔ o.body = .class data := by
  unfold classData?
  cases o.body <;> simp

theorem cls_mapProc (f : ProcData → ProcData) (o : Object) : (o.mapProc f).cls = o.cls := by
  obtain ⟨cls, frozen, ivars, body⟩ := o
  cases body <;> rfl

theorem cls_mapClass (f : ClassData → ClassData) (o : Object) : (o.mapClass f).cls = o.cls := by
  obtain ⟨cls, frozen, ivars, body⟩ := o
  cases body <;> rfl

theorem tag_mapClass {f : ClassData → ClassData} (o : Object)
    (same : ∀ data, (f data).kind = data.kind) : (o.mapClass f).tag = o.tag := by
  obtain ⟨cls, frozen, ivars, body⟩ := o
  cases body with
  | «class» data => simp only [mapClass, tag, same]
  | _ => rfl

theorem classData?_mapProc (f : ProcData → ProcData) (o : Object) :
    (o.mapProc f).classData? = o.classData? := by
  obtain ⟨cls, frozen, ivars, body⟩ := o
  cases body <;> rfl

theorem classData?_mapClass (f : ClassData → ClassData) (o : Object) :
    (o.mapClass f).classData? = o.classData?.map f := by
  obtain ⟨cls, frozen, ivars, body⟩ := o
  cases body <;> rfl

end Object

namespace Machine

variable {m : Machine}

theorem classData?_eq_bind (c : ObjId) : m.classData? c = (m.object? c).bind (·.classData?) := by
  cases present : m.object? c with
  | none => simp [classData?, present]
  | some o =>
      obtain ⟨cls, frozen, ivars, body⟩ := o
      cases body <;> simp [classData?, Object.classData?, present]

theorem classData?_eq_some {c : ObjId} {data : ClassData} :
    m.classData? c = some data ↔ ∃ o, m.object? c = some o ∧ o.body = .class data := by
  rw [classData?_eq_bind, Option.bind_eq_some_iff]
  simp only [Object.classData?_eq_some]

theorem class_of_typeOf {id : ObjId} (typed : (m.typeOf (.obj id)).isClassLike = true) :
    ∃ o, m.object? id = some o ∧ ∃ data, o.body = .class data := by
  obtain ⟨o, live⟩ := live_of_typeOf rfl fun same => by rw [same] at typed; cases typed
  rw [typeOf_obj live] at typed
  refine ⟨o, live, ?_⟩
  cases shape : o.body with
  | «class» data => exact ⟨data, rfl⟩
  | _ => simp [Object.tag, shape, ValueType.isClassLike] at typed

theorem holds_of_object? {holder x : ObjId} {o : Object} (live : m.object? holder = some o)
    (named : x ∈ o.references) : m.Holds x := .inr (.inr ⟨holder, o, live, named⟩)

theorem holds_of_classData? {c x : ObjId} {data : ClassData} (found : m.classData? c = some data)
    (named : x ∈ data.references) : m.Holds x := by
  obtain ⟨o, live, body⟩ := classData?_eq_some.mp found
  refine holds_of_object? live (Object.mem_references_of_body ?_)
  rw [body]
  exact named

theorem classData?_modify (p : ObjId) (f : Object → Object) (x : ObjId) :
    ({ m with heap := m.heap.modify p f } : Machine).classData? x =
      if x = p then (m.object? x).bind fun o => (f o).classData? else m.classData? x := by
  rw [classData?_eq_bind, object?_modify, classData?_eq_bind]
  split
  · rw [Option.bind_map]
    rfl
  · rfl

theorem classData?_modify_of_class {p : ObjId} {f : Object → Object}
    (same : ∀ o, (f o).classData? = o.classData?) (x : ObjId) :
    ({ m with heap := m.heap.modify p f } : Machine).classData? x = m.classData? x := by
  rw [classData?_modify, classData?_eq_bind]
  simp only [same, ite_self]

theorem classData?_modify_mapClass (p : ObjId) (f : ClassData → ClassData) (x : ObjId) :
    ({ m with heap := m.heap.modify p (Object.mapClass f) } : Machine).classData? x =
      if x = p then (m.classData? x).map f else m.classData? x := by
  rw [classData?_modify, classData?_eq_bind, Option.map_bind]
  simp only [Object.classData?_mapClass, Function.comp_def]

theorem classOf_modify {p : ObjId} {f : Object → Object} (same : ∀ o, (f o).cls = o.cls)
    (v : Value) : ({ m with heap := m.heap.modify p f } : Machine).classOf v = m.classOf v := by
  cases v with
  | obj id =>
      simp only [classOf, object?_modify]
      split
      · cases m.object? id <;> simp [same]
      · rfl
  | bool b => cases b <;> rfl
  | _ => rfl

theorem holds_of_ownMethod? {c : ObjId} {mid : Sym} {method : Method}
    (found : m.ownMethod? c mid = some method) : m.Holds method.proc := by
  obtain ⟨data, isClass, row⟩ := Option.bind_eq_some_iff.mp found
  refine holds_of_classData? isClass (ClassData.mem_references.mpr (.inr (.inl ?_)))
  exact ⟨method, SymMap.mem_values_of_get? row, rfl⟩

theorem holds_of_findMethod {c : ObjId} {mid : Sym} {method : Method}
    (found : m.findMethod c mid = some method) : m.Holds method.proc := by
  obtain ⟨d, -, row⟩ := List.exists_of_findSome?_eq_some ((findMethod_eq c mid).symm.trans found)
  exact holds_of_ownMethod? row

/-! ### Rows of methods -/

section Rows

variable {m' : Machine} {c x : ObjId} {mid s : Sym} {method : Method}

/-- The machine with the proc of a method installed in the class `c`. -/
def withInstalled (m : Machine) (c : ObjId) (method : Method) : Machine :=
  { m with heap := m.heap.modify method.proc (Object.mapProc fun p =>
      Act.ProcData.installed p c method.noArg) }

/-- The machine with a method entered in the class `c`, its proc installed. -/
def withMethod (m : Machine) (c : ObjId) (mid : Sym) (method : Method) : Machine :=
  { m.withInstalled c method with
    heap := (m.withInstalled c method).heap.modify c (Object.mapClass fun data =>
      { data with methods := data.methods.insert mid method }) }

def withoutMethod (m : Machine) (c : ObjId) (mid : Sym) : Machine :=
  { m with heap := m.heap.modify c (Object.mapClass fun data =>
      { data with methods := data.methods.erase mid }) }

theorem classData?_withMethod (x : ObjId) :
    (m.withMethod c mid method).classData? x =
      if x = c then
        (m.classData? x).map fun data => { data with methods := data.methods.insert mid method }
      else m.classData? x := by
  have installed : ∀ y, (m.withInstalled c method).classData? y = m.classData? y :=
    classData?_modify_of_class (Object.classData?_mapProc _)
  rw [withMethod, classData?_modify_mapClass c _ x, installed]

theorem classData?_withoutMethod (x : ObjId) :
    (m.withoutMethod c mid).classData? x =
      if x = c then
        (m.classData? x).map fun data => { data with methods := data.methods.erase mid }
      else m.classData? x := classData?_modify_mapClass c _ x

/-- An edit of the methods of one class leaves the rows of other classes, and of the class those that
it leaves in every table. -/
theorem ownMethod?_of_rows (edit : SymMap Method → SymMap Method)
    (rows : ∀ x, m'.classData? x =
      if x = c then (m.classData? x).map fun data => { data with methods := edit data.methods }
      else m.classData? x)
    (others : ∀ t s, s ≠ mid → (edit t).get? s = t.get? s) (apart : ¬ (x = c ∧ s = mid)) :
    m'.ownMethod? x s = m.ownMethod? x s := by
  rw [ownMethod?, ownMethod?, rows]
  split
  case isTrue same =>
      have other : s ≠ mid := fun named => apart ⟨same, named⟩
      cases m.classData? x with
      | none => rfl
      | some data => exact others _ _ other
  case isFalse => rfl

theorem superclass?_of_rows (edit : SymMap Method → SymMap Method)
    (rows : ∀ x, m'.classData? x =
      if x = c then (m.classData? x).map fun data => { data with methods := edit data.methods }
      else m.classData? x) (x : ObjId) :
    m'.superclass? x = m.superclass? x := by
  rw [superclass?, superclass?, rows]
  split
  · cases m.classData? x <;> rfl
  · rfl

theorem ownMethod?_withMethod_self (isClass : (m.typeOf (.obj c)).isClassLike = true) :
    (m.withMethod c mid method).ownMethod? c mid = some method := by
  obtain ⟨o, present, data, body⟩ := class_of_typeOf isClass
  have found := classData?_eq_some.mpr ⟨o, present, body⟩
  rw [ownMethod?, classData?_withMethod, if_pos rfl, found]
  exact SymMap.get?_insert_self _ _ _

/-- Rows other than the one that is written stay. -/
theorem ownMethod?_withMethod_of_ne (apart : ¬ (x = c ∧ s = mid)) :
    (m.withMethod c mid method).ownMethod? x s = m.ownMethod? x s :=
  ownMethod?_of_rows (·.insert mid method) classData?_withMethod
    (fun _ _ other => SymMap.get?_insert_of_ne _ _ other) apart

theorem ownMethod?_withoutMethod_of_ne (apart : ¬ (x = c ∧ s = mid)) :
    (m.withoutMethod c mid).ownMethod? x s = m.ownMethod? x s :=
  ownMethod?_of_rows (·.erase mid) classData?_withoutMethod
    (fun _ _ other => SymMap.get?_erase_of_ne _ other) apart

theorem ownMethod?_withoutMethod_self : (m.withoutMethod c mid).ownMethod? c mid = none := by
  rw [ownMethod?, classData?_withoutMethod, if_pos rfl]
  cases m.classData? c with
  | none => rfl
  | some data => exact SymMap.get?_erase_self _ _

end Rows

end Machine

/-- An edited object names nothing new. -/
theorem Edit.mem_references_apply {e : Edit} {o : Object} {x : ObjId}
    (member : x ∈ (e.apply o).references) : x ∈ o.references := by
  cases e with
  | thaw => exact member
  | _ =>
      rcases Object.mem_references_withBody member with old | new
      · exact old
      · simp [Body.references, Value.objects, HashTable.empty] at new

namespace Act

variable {α β : Type} {g : Grant} {m : Machine}

/-! ## Tables of a class -/

theorem does_onClass (c : ObjId) (f : ClassData → ClassData)
    (how : ∀ o data, m.object? c = some o → o.body = .class data →
      Touch g m c o { o with body := .class (f data) } ∧
        ∀ x ∈ (f data).references, x ∈ data.references ∨ m.Known g x) :
    Does g (onClass c f) m fun _ m' =>
      m' = { m with heap := m.heap.modify c (Object.mapClass f) } := by
  apply does_touch c (Object.mapClass f)
  intro o live
  obtain ⟨cls, frozen, ivars, body⟩ := o
  cases body with
  | «class» data =>
      obtain ⟨touch, known⟩ := how _ data live rfl
      refine .inr ⟨touch, ?_⟩
      intro x member
      rcases Object.mem_references_withBody member with old | new
      · exact .inl old
      · rcases known x new with old | given
        · exact .inl (Object.mem_references_of_body old)
        · exact .inr given
  | _ => exact .inl rfl

theorem does_putConst (c : ObjId) (s : Sym) (v : Value)
    (may : ∀ o, m.object? c = some o → o.frozen = false ∨ g.names = some c)
    (known : ∀ x ∈ Value.objects [v], m.Known g x) :
    Does g (putConst c s v) m fun _ _ => True := by
  refine (does_onClass c _ ?_).mono fun _ _ _ _ _ => trivial
  intro o data live body
  refine ⟨.const data s v body (may o live), fun x member => ?_⟩
  exact (ClassData.mem_references_insertConst member).imp_right fun given =>
    known x (by simp [Value.mem_objects, given])

/-! ## Classes and modules -/

theorem does_newClass (name : String) {superclass : Option ObjId} {kind : ClassKind}
    (may : g.founds = true) (proper : ∀ v, kind ≠ .singleton v)
    (below : kind = .plain → ∃ p, superclass = some p ∧ m.typeOf (.obj p) = .plainClass)
    (known : ∀ x, superclass = some x → m.Known g x) :
    Does g (newClass name superclass kind) m fun id m' => m'.Live id := by
  have made : ∀ (symbols : SymbolTable) (s : Option Sym) (own : Builtin),
      Does g (alloc { cls := own.id
                      body := .class { name := s, superclass := superclass, kind := kind } })
        { m with symbols := symbols } fun id m' => m'.Live id := by
    intro symbols s own
    refine .of_tidy fun tidy => (does_alloc ?_ ?_ ?_).mono ?_
    · exact ⟨rfl, rfl, rfl, rfl, fun v same => absurd same (proper v)⟩
    · intro x member
      rcases List.mem_cons.mp member with rfl | member
      · exact .builtin own
      · rcases ClassData.mem_references.mp member with parent | ⟨_, none, -⟩ | none | attached
        · exact known x parent
        · cases none
        · cases none
        · exact absurd attached (proper _)
    · intro c same
      cases same
      exact ⟨may, below⟩
    · intro _ _ _ _ done
      obtain ⟨rfl, rfl⟩ := done
      exact Machine.live_newId tidy _
  have named : Does g (some <$> intern name) m
      fun _ m' => ∃ symbols, m' = { m with symbols := symbols } :=
    .map ((does_intern name).mono fun _ _ _ _ interned => ⟨_, interned.2⟩)
  unfold newClass
  by_cases nameless : name.isEmpty = true
  · rw [if_pos nameless]
    exact made m.symbols none _
  · rw [if_neg nameless]
    apply named.bind
    intro s _ _ _ done
    obtain ⟨symbols, rfl⟩ := done
    exact made symbols s _

/-- What every singleton class is made by: a new class attached to `v` becomes the class of the object
`id`, which is what `v` stands for. -/
def newSingleton (id : ObjId) (v : Value) (superclass : ObjId) : Act ObjId := do
  let s ← alloc
    { cls := Builtin.classClass.id
      body := .class { name := none, superclass := some superclass, kind := .singleton v } }
  onHeap fun h => h.modify id fun o => { o with cls := s }
  return s

theorem does_newSingleton {id superclass : ObjId} (may : g.founds = true)
    (live : m.Live id) (known : m.Known g superclass)
    (under : ∀ p message, m.object? id = some p → p.body = .exception message →
      superclass = p.cls) :
    Does g (newSingleton id (.obj id) superclass) m fun s m' =>
      m'.Live s ∧ ∃ o, m'.object? id = some o ∧ o.cls = s := by
  refine .of_tidy fun tidy => (does_alloc ?_ ?_ ?_).bind ?_
  · exact ⟨rfl, rfl, rfl, rfl, fun _ _ => rfl⟩
  · intro x member
    rcases List.mem_cons.mp member with rfl | member
    · exact .builtin .classClass
    · rcases ClassData.mem_references.mp member with parent | ⟨_, none, -⟩ | none | attached
      · cases parent
        exact known
      · cases none
      · cases none
      · cases attached
        exact .alive live
  · intro c same
    cases same
    exact ⟨may, nofun⟩
  · intro _ _ _ _ done
    obtain ⟨rfl, rfl⟩ := done
    generalize same : ({ cls := _, body := _ } : Object) = o
    have made := Machine.live_newId tidy o
    have present : (m.withNew o).object? (m.newId o) = some o := by
      rw [Machine.object?_withNew tidy, if_pos rfl]
    have isClass := Machine.classData?_eq_some.mpr ⟨o, present, by rw [← same]⟩
    have own : isSingletonOf (m.withNew o) (m.newId o) (.obj id) = true := by
      simp [isSingletonOf, isClass, Value.same]
    have parent : (m.withNew o).superclass? (m.newId o) = some superclass :=
      Machine.superclass?_eq_some.mpr ⟨_, isClass, rfl⟩
    refine (does_touch id _ ?_).bind ?_
    · intro p found
      have below : ∀ message, p.body = .exception message →
          (m.withNew o).superclass? (m.newId o) = some p.cls := by
        intro message body
        rw [Machine.object?_withNew tidy, if_neg (Machine.ne_newId tidy o live)] at found
        exact parent.trans (congrArg some (under p message found body))
      refine .inr ⟨.reclass _ own may below, ?_⟩
      intro x member
      rcases List.mem_cons.mp member with rfl | member
      · exact .inr (.alive made)
      · exact .inl (List.mem_cons_of_mem _ member)
    · intro _ _ _ _ same
      subst same
      refine .pure ⟨Machine.live_modify made _, ?_⟩
      obtain ⟨p, present⟩ := (Machine.live_withNew tidy o live).object?
      exact ⟨_, by rw [Machine.object?_modify, if_pos rfl, present]; rfl, rfl⟩

/-- Afterwards the singleton class is the class of the value, which is an object. -/
theorem does_singletonWithin (quiet : g.sweeps = false) (may : g.founds = true) (n : Nat) (v : Value) :
    Does g (singletonWithin n v) m fun s m' =>
      m'.Live s ∧ ∃ id o, v = .obj id ∧ m'.object? id = some o ∧ o.cls = s := by
  induction n generalizing m v with
  | zero => exact fun _ => trivial
  | succ n ih =>
      apply Does.get_bind
      split
      · exact does_fail _ _ _
      case h_2 id o found =>
        obtain ⟨rfl, live⟩ : v = .obj id ∧ m.object? id = some o := by
          cases v with
          | obj x =>
              obtain ⟨present, live, same⟩ := Option.map_eq_some_iff.mp found
              cases same
              exact ⟨rfl, live⟩
          | _ => cases found
        split
        case isTrue own =>
            refine .pure ⟨?_, id, o, rfl, live, rfl⟩
            cases isClass : m.classData? o.cls with
            | none => simp [isSingletonOf, isClass] at own
            | some data => exact Machine.live_of_classData? isClass
        case isFalse =>
            have done : ∀ s (m' : Machine), (m'.Live s ∧ ∃ o, m'.object? id = some o ∧ o.cls = s) →
                m'.Live s ∧ ∃ x o, Value.obj id = .obj x ∧ m'.object? x = some o ∧ o.cls = s :=
              fun s m' ⟨made, o, present, same⟩ => ⟨made, id, o, rfl, present, same⟩
            dsimp only
            split
            case h_1 plain =>
                refine .of_tidy fun tidy => (ih _).bind ?_
                intro parent m' evolution _ done
                obtain ⟨made, -⟩ := done
                have still := evolution.live tidy quiet (.of_object? live)
                refine (does_newSingleton may still (.alive made) ?_).mono fun s m' _ _ => done s m'
                -- The object is a class, so it is no exception.
                intro p message present body
                obtain ⟨q, before, was⟩ :=
                  evolution.exception_before tidy quiet (.of_object? live) present body
                obtain ⟨r, found, isClass⟩ := Machine.classData?_eq_some.mp plain
                cases before.symm.trans found
                cases was.symm.trans isClass
            case h_2 =>
                refine (does_newSingleton may (.of_object? live)
                  (.held (Machine.holds_of_object? live (.head _))) ?_).mono
                    fun s m' _ _ => done s m'
                intro p message present _
                cases live.symm.trans present
                rfl

theorem does_singletonClass (quiet : g.sweeps = false) (may : g.founds = true) (v : Value) :
    Does g (singletonClass v) m fun s m' =>
      m'.Live s ∧ ∃ id o, v = .obj id ∧ m'.object? id = some o ∧ o.cls = s :=
  .get_bind (does_singletonWithin quiet may _ v)

theorem does_defineClass (quiet : g.sweeps = false) (may : g.founds = true) {outer : ObjId}
    {name : String} {superclass : Option ObjId}
    (named : m.ownConst? outer (m.symbols.intern name).1 = none →
      m.typeOf (.obj (superclass.getD Builtin.object.id)) = .plainClass → g.names = some outer)
    (handed : ∀ x, superclass = some x → x ∈ g.ids) :
    Does g (defineClass outer name superclass) m fun _ _ => True := by
  apply (does_intern name).bind
  intro s m' _ _ done
  obtain ⟨rfl, rfl⟩ := done
  apply Does.get_bind
  split
  case h_1 bound _ =>
      dsimp only
      split
      · exact does_fail_bind _ _ _ _
      apply (does_expectClass bound).bind
      intro id _ _ _ done
      obtain ⟨rfl, -, -⟩ := done
      cases superclass with
      | none => exact .pure trivial
      | some parent =>
          dsimp only
          split
          · exact does_fail_bind _ _ _ _
          · exact .pure trivial
  case h_2 unbound =>
      dsimp only
      split
      · exact does_fail_bind _ _ _ _
      rename_i plain
      refine (does_newClass name may ?_ ?_ ?_).bind ?_
      · exact fun v => nofun
      · exact fun _ => ⟨_, rfl, Decidable.not_not.mp plain⟩
      · intro x same
        cases superclass with
        | none =>
            cases same
            exact .builtin .object
        | some parent =>
            cases same
            exact .handed (handed _ rfl)
      intro id m1 _ tidy made
      apply (does_singletonClass quiet may _).bind
      intro own m2 evolution _ _
      have names := named unbound (Decidable.not_not.mp plain)
      refine (does_putConst outer _ _ (fun _ _ => .inr names) ?_).bind fun _ _ _ _ _ =>
        .pure trivial
      intro x member
      obtain rfl := Value.obj.inj (List.mem_singleton.mp (Value.mem_objects.mp member))
      exact .alive (evolution.live tidy quiet made)

theorem does_defineModule (may : g.founds = true) {outer : ObjId} {name : String}
    (named : m.ownConst? outer (m.symbols.intern name).1 = none → g.names = some outer) :
    Does g (defineModule outer name) m fun _ _ => True := by
  apply (does_intern name).bind
  intro s m' _ _ done
  obtain ⟨rfl, rfl⟩ := done
  apply Does.get_bind
  split
  case h_1 bound _ =>
      dsimp only
      split
      · exact does_fail_bind _ _ _ _
      · exact (does_expectClass bound).mono fun _ _ _ _ _ => trivial
  case h_2 unbound =>
      refine (does_newClass name may ?_ ?_ ?_).bind ?_
      · exact fun v => nofun
      · exact nofun
      · exact fun x => nofun
      intro id m1 _ _ made
      refine (does_putConst outer _ _ (fun _ _ => .inr (named unbound)) ?_).bind fun _ _ _ _ _ =>
        .pure trivial
      intro x member
      obtain rfl := Value.obj.inj (List.mem_singleton.mp (Value.mem_objects.mp member))
      exact .alive made

/-! ## Methods -/

theorem ProcData.mem_references_installed {p : ProcData} {c x : ObjId} {noArg : Bool}
    (member : x ∈ (Body.proc (ProcData.installed p c noArg)).references) :
    x ∈ (Body.proc p).references ∨ x = c := by
  simp only [Body.references, List.mem_append, Option.mem_toList] at member ⊢
  have env : (ProcData.installed p c noArg).env = p.env := by
    unfold ProcData.installed
    cases noArg <;> cases p.target <;> rfl
  have target : (ProcData.installed p c noArg).target = p.target ∨
      (ProcData.installed p c noArg).target = some c := by
    unfold ProcData.installed
    cases noArg <;> cases none : p.target <;> simp [none]
  rw [env] at member
  rcases member with inEnv | inTarget
  · exact .inl (.inl inEnv)
  · rcases target with same | first
    · exact .inl (.inr (same ▸ inTarget))
    · exact .inr (Option.some.inj (inTarget.symm.trans first))

/-- In `m'` the class `c` has a method, and all other methods, classes and objects are what they were in
`m`, but for the proc of the method. -/
structure Takes (m m' : Machine) (c : ObjId) (mid : Sym) (method : Method) : Prop where
  own : m'.ownMethod? c mid = some method
  rest : ∀ s, s ≠ mid → m'.ownMethod? c s = m.ownMethod? c s
  objects : ∀ x, x ≠ c → x ≠ method.proc → m'.object? x = m.object? x
  superclasses : ∀ x, m'.superclass? x = m.superclass? x
  classes : ∀ v, m'.classOf v = m.classOf v
  symbols : m'.symbols = m.symbols

theorem takes_withMethod {c : ObjId} (isClass : (m.typeOf (.obj c)).isClassLike = true) (mid : Sym)
    (method : Method) : Takes m (m.withMethod c mid method) c mid method where
  own := Machine.ownMethod?_withMethod_self isClass
  rest s apart := Machine.ownMethod?_withMethod_of_ne fun both => apart both.2
  objects x apart other := by
    rw [Machine.withMethod, Machine.object?_modify, if_neg apart, Machine.withInstalled,
      Machine.object?_modify, if_neg other]
  superclasses := Machine.superclass?_of_rows (·.insert mid method) Machine.classData?_withMethod
  classes v := by
    rw [Machine.withMethod, Machine.classOf_modify (Object.cls_mapClass _)]
    exact Machine.classOf_modify (Object.cls_mapProc _) v
  symbols := rfl

/-- Installed in a live class, a proc that refers to no class yet refers to that one. -/
theorem does_install {c : ObjId} (method : Method) (live : m.Live c) :
    Does g (onHeap fun h => h.modify method.proc (Object.mapProc fun p =>
      ProcData.installed p c method.noArg)) m fun _ m' => m' = m.withInstalled c method := by
  refine does_touch method.proc _ fun o _ => ?_
  obtain ⟨cls, frozen, ivars, shape⟩ := o
  cases shape with
  | proc p =>
      refine .inr ⟨.install p c method.noArg rfl, fun x member => ?_⟩
      rcases Object.mem_references_withBody member with old | new
      · exact .inl old
      · rcases ProcData.mem_references_installed new with old | rfl
        · exact .inl (Object.mem_references_of_body old)
        · exact .inr (.alive live)
  | _ => exact .inl rfl

/-- The proc may be dead, and then is known only because something holds it; installing it leaves such
a machine as it is. -/
theorem known_withInstalled {c : ObjId} {method : Method} (known : m.Known g method.proc) :
    (m.withInstalled c method).Known g method.proc := by
  cases present : m.object? method.proc with
  | none =>
      rw [Machine.withInstalled, Heap.modify_of_dead _ present]
      exact known
  | some o => exact .alive (Machine.live_modify (.of_object? present) _)

theorem does_defineMethod (c : ObjId) (mid : Sym) {method : Method}
    (known : m.Known g method.proc) :
    Does g (defineMethod c mid method) m fun _ m' => Takes m m' c mid method := by
  refine .told_bind (does_expectClass _) fun _ isClass => ?_
  obtain ⟨-, isClass⟩ := isClass
  obtain ⟨o, live, data, body⟩ := Machine.class_of_typeOf isClass
  refine .told_bind (does_checkFrozen _) fun _ thawed => ?_
  refine (does_install method (.of_object? live)).bind fun _ _ _ _ same => ?_
  subst same
  refine (does_onClass c _ ?_).mono fun _ _ _ _ same => same ▸ takes_withMethod isClass mid method
  intro o' data' present body'
  have still : o' = o := by
    rw [Machine.withInstalled, Machine.object?_modify, live] at present
    split at present
    · obtain ⟨cls, frozen, ivars, shape⟩ := o
      cases body
      exact (Option.some.inj present).symm
    · exact (Option.some.inj present).symm
  subst still
  refine ⟨.method data' mid method body' (thawed c _ rfl live), fun x member => ?_⟩
  rcases ClassData.mem_references_insertMethod member with old | rfl
  · exact .inl old
  · exact .inr (known_withInstalled known)

/-- Ending with the error for a method that a class does not have. -/
theorem does_missingMethod (c : ObjId) (mid : Sym) (post : α → Machine → Prop) :
    Does g (missingMethod c mid) m post :=
  .get_bind ((does_ofOption _).bind fun _ _ _ _ _ => does_fail _ _ _)

theorem does_undefMethod (c : ObjId) (mid : Sym) :
    Does g (undefMethod c mid) m fun _ _ => True := by
  refine .told_bind (does_checkFrozen _) fun _ thawed => .get_bind ?_
  split
  · refine (does_onClass c _ fun o data live body => ?_).mono fun _ _ _ _ _ => trivial
    exact ⟨.unmethod data mid body (thawed c o rfl live), fun x member =>
      .inl (ClassData.mem_references_eraseMethod member)⟩
  · exact does_missingMethod c mid _

theorem does_aliasMethod (c : ObjId) (new old : Sym) :
    Does g (aliasMethod c new old) m fun _ _ => True := by
  refine .get_bind ((does_ofOption _).bind ?_)
  rintro found _ _ _ ⟨climbed, rfl⟩
  cases found with
  | some method =>
      have held := Machine.holds_of_findMethod (Machine.findMethod?_eq_some climbed)
      exact (does_defineMethod c new (.held held)).mono fun _ _ _ _ _ => trivial
  | none => exact does_missingMethod c old _

/-! ## Constants and variables -/

theorem does_constSet (c : ObjId) (name : String) (v : Value)
    (handed : ∀ x ∈ Value.objects [v], x ∈ g.ids) :
    Does g (constSet c name v) m fun _ _ => True := by
  refine (does_expectClass _).bind fun _ _ _ _ _ => ?_
  refine .told_bind (does_checkFrozen _) fun _ thawed => ?_
  refine (does_intern name).bind fun s _ _ _ done => ?_
  obtain ⟨-, rfl⟩ := done
  exact does_putConst c s v (fun o live => .inl (thawed c o rfl live)) fun x member =>
    .handed (handed x member)

theorem does_constGet (c : ObjId) (name : String) :
    Does g (constGet c name) m fun _ _ => True := by
  refine .get_bind ((does_ofOption _).bind fun found _ _ _ _ => ?_)
  cases found with
  | some v => exact .pure trivial
  | none => exact does_fail _ _ _

theorem does_globalSet (name : String) (v : Value)
    (handed : ∀ x ∈ Value.objects [v], x ∈ g.ids) :
    Does g (globalSet name v) m fun _ _ => True := by
  refine (does_intern name).bind fun s m' _ _ _ => ?_
  refine (does_modify _ (.single (.bind s v ?_))).mono fun _ _ _ _ _ => trivial
  intro x same
  subst same
  exact .handed (handed x (by simp [Value.mem_objects]))

theorem does_globalGet (name : String) : Does g (globalGet name) m fun _ _ => True := by
  refine (does_intern name).bind fun s m' _ _ _ => ?_
  exact .get_bind (.pure trivial)

theorem does_ivarSet (target : Value) (name : String) (v : Value)
    (handed : ∀ x ∈ Value.objects [v], x ∈ g.ids) :
    Does g (ivarSet target name v) m fun _ _ => True := by
  cases target with
  | obj id =>
      refine .told_bind (does_checkFrozen _) fun _ thawed => ?_
      apply (does_intern name).bind
      intro s _ _ _ done
      obtain ⟨-, rfl⟩ := done
      refine (does_touch id _ ?_).mono fun _ _ _ _ _ => trivial
      intro o live
      refine .inr ⟨.ivar s v (thawed id o rfl live), ?_⟩
      intro x member
      simp only [Object.references, List.mem_cons, List.mem_append] at member ⊢
      rcases member with (same | named) | body
      · exact .inl (.inl (.inl same))
      · rcases SymMap.mem_values_insert (Value.mem_objects.mp named) with given | old
        · exact .inr (.handed (handed x (by simp [Value.mem_objects, given])))
        · exact .inl (.inl (.inr (Value.mem_objects.mpr old)))
      · exact .inl (.inr body)
  | _ => exact does_fail _ _ _

/-! ## Plain objects and the collector -/

theorem does_objectNew (c : ObjId) : Does g (objectNew c) m fun _ _ => True := by
  apply Does.get_bind
  dsimp only
  split
  · exact does_fail_bind _ _ _ _
  case isFalse plain =>
      obtain ⟨o, live⟩ := Machine.live_of_typeOf (Decidable.not_not.mp plain) (by decide)
      refine (does_alloc ⟨rfl, rfl, trivial⟩ ?_ (by nofun)).bind fun _ _ _ _ _ => .pure trivial
      intro x member
      obtain rfl : x = c := by
        simpa [Object.references, Body.references, SymMap.values, Value.objects] using member
      exact .alive (.of_object? live)

theorem does_istructNew {c : ObjId} (word : Int64) (known : m.Known g c) :
    Does g (istructNew c word) m fun _ _ => True := by
  refine (does_alloc ⟨rfl, rfl, trivial⟩ ?_ (by nofun)).bind fun _ _ _ _ _ => .pure trivial
  intro x member
  obtain rfl : x = c := by
    simpa [Object.references, Body.references, SymMap.values, Value.objects] using member
  exact known

theorem does_freeze (v : Value) : Does g (freeze v) m fun _ _ => True := by
  cases v with
  | obj id =>
      refine (does_touch id _ ?_).mono fun _ _ _ _ _ => trivial
      exact fun o _ => .inr ⟨.freeze, fun x member => .inl member⟩
  | _ => exact .pure trivial

theorem does_edit (id : ObjId) (e : Edit) (may : g.edits = some id) :
    Does g (edit id e) m fun _ _ => True := by
  refine .get_bind ((does_touch id _ ?_).bind fun _ _ _ _ _ => .pure trivial)
  exact fun o _ => .inr ⟨.edit e may, fun x member => .inl (Edit.mem_references_apply member)⟩

theorem does_collect (may : g.sweeps = true) (alone : g.ids = []) :
    Does g collect m fun _ _ => True :=
  .of_run rfl (.single (.collect may alone)) fun _ => trivial

theorem does_setCollecting (on : Bool) : Does g (setCollecting on) m fun _ _ => True :=
  .of_run rfl (.single (.setDisabled _)) fun _ => trivial

theorem does_arenaRestore (mark : Nat) :
    Does g (onHeap (·.arenaRestore mark)) m fun _ m' =>
      m' = { m with heap := m.heap.arenaRestore mark } :=
  does_modify _ (.single (.cutArena mark))

theorem does_arenaPush {id : ObjId} (known : m.Known g id) :
    Does g (onHeap (·.arenaPush id)) m fun _ m' => m' = { m with heap := m.heap.arenaPush id } :=
  does_modify _ (.single (.pushArena id known))

end Act

end GuestVM
