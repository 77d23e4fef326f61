import GuestVM.Proofs.Bridge.Bridging
import GuestVM.Proofs.Machine.Descent
import GuestVM.Proofs.Machine.Opening

/-! # Metaclasses

The class of a class is the singleton class of that class, and its superclass is the class of the
superclass.  While a class is being made this does not hold yet, so it is no invariant of single
changes; what makes no classes keeps it, and each operation that makes one restores it before it
ends. -/
set_option autoImplicit false

namespace GuestVM

/-- The classes above the singleton class of the root. -/
def Builtin.tower : List Builtin := [.classClass, .module, .object, .basicObject]

/-! ## Shapes -/

/-- The kind and the superclass of a class, which nothing changes once it is made. -/
def Object.shape? (o : Object) : Option (ClassKind × Option ObjId) :=
  o.classData?.map fun data => (data.kind, data.superclass)

namespace Machine

variable {m m' : Machine} {c p s x id : ObjId} {o : Object} {parent : Option ObjId}

def shape? (m : Machine) (c : ObjId) : Option (ClassKind × Option ObjId) :=
  (m.object? c).bind Object.shape?

theorem shape?_eq (m : Machine) (c : ObjId) :
    m.shape? c = (m.classData? c).map fun data => (data.kind, data.superclass) := by
  rw [shape?, classData?_eq_bind, Option.map_bind]
  rfl

theorem shape?_eq_some {kind : ClassKind} :
    m.shape? c = some (kind, parent) ↔
      ∃ data, m.classData? c = some data ∧ data.kind = kind ∧ data.superclass = parent := by
  simp [shape?_eq]

theorem superclass?_of_shape? {kind : ClassKind} (shape : m.shape? c = some (kind, parent)) :
    m.superclass? c = parent := by
  obtain ⟨data, found, -, same⟩ := shape?_eq_some.mp shape
  rw [superclass?, found]
  exact same

theorem live_of_shape? {shape : ClassKind × Option ObjId} (found : m.shape? c = some shape) :
    m.Live c := by
  obtain ⟨o, present, -⟩ := Option.bind_eq_some_iff.mp found
  exact .of_object? present

theorem shape?_of_object? (present : m.object? c = some o) : m.shape? c = o.shape? := by
  rw [shape?, present]
  rfl

theorem shape?_of_plain (plain : m.typeOf (.obj c) = .plainClass) :
    m.shape? c = some (.plain, m.superclass? c) := by
  obtain ⟨o, present⟩ := live_of_typeOf plain (by decide)
  rw [typeOf_obj present] at plain
  cases body : o.body with
  | «class» data =>
      have kind : data.kind = .plain := by
        cases kind : data.kind with
        | plain => rfl
        | _ => simp [Object.tag, body, kind] at plain
      have isClass := classData?_eq_some.mpr ⟨o, present, body⟩
      rw [shape?_eq, superclass?, isClass, Option.map_some, kind]
      rfl
  | _ => simp [Object.tag, body] at plain

theorem typeOf_of_shape? (shape : m.shape? c = some (.plain, parent)) :
    m.typeOf (.obj c) = .plainClass := by
  obtain ⟨data, found, kind, -⟩ := shape?_eq_some.mp shape
  obtain ⟨o, present, body⟩ := classData?_eq_some.mp found
  rw [typeOf_obj present, Object.tag, body]
  simp only [kind]

theorem isSingletonOf_iff :
    Act.isSingletonOf m s (.obj c) = true ↔ ∃ p, m.shape? s = some (.singleton (.obj c), p) := by
  rw [shape?_eq, Act.isSingletonOf]
  cases m.classData? s with
  | none => simp
  | some data =>
      obtain ⟨name, superclass, kind, methods, consts⟩ := data
      cases kind with
      | singleton v => cases v <;> simp [Value.same]
      | _ => simp

theorem shape?_withNew (tidy : m.heap.Tidy) (o : Object) (x : ObjId) :
    (m.withNew o).shape? x = if x = m.newId o then o.shape? else m.shape? x := by
  rw [shape?, object?_withNew tidy]
  split <;> rfl

theorem shape?_modify (id : ObjId) {f : Object → Object} (same : ∀ o, (f o).shape? = o.shape?)
    (x : ObjId) :
    ({ m with heap := m.heap.modify id f } : Machine).shape? x = m.shape? x := by
  rw [shape?, shape?, object?_modify]
  split
  · rw [Option.bind_map]
    exact Option.bind_congr fun o _ => same o
  · rfl

theorem classOf_of_object? (present : m.object? x = some o) : m.classOf (.obj x) = o.cls := by
  rw [classOf, present]
  rfl

theorem classOf_withNew (tidy : m.heap.Tidy) (o : Object) (live : m.Live x) :
    (m.withNew o).classOf (.obj x) = m.classOf (.obj x) := by
  rw [classOf, object?_withNew tidy, if_neg (ne_newId tidy o live)]
  rfl

/-! ## Mirrors -/

/-- The superclass of the singleton class of a class with a given superclass. -/
def metaParent (m : Machine) (parent : Option ObjId) : ObjId :=
  (parent.map fun p => m.classOf (.obj p)).getD Builtin.classClass.id

structure Mirrored (m : Machine) : Prop where
  own : ∀ c parent, m.shape? c = some (.plain, parent) →
    m.shape? (m.classOf (.obj c)) = some (.singleton (.obj c), some (m.metaParent parent))
  parent : ∀ c p, m.shape? c = some (.plain, some p) → ∃ q, m.shape? p = some (.plain, q)
  root : ∀ c, m.shape? c = some (.plain, none) → c = Builtin.basicObject.id
  builtin : ∀ b ∈ Builtin.tower, m.shape? b.id = some (.plain, b.parent?.map (·.id))

/-- What is the same for the classes of `keep`, among which are all plain classes afterwards, is
mirrored again. -/
theorem Mirrored.of_kept (mirrored : m.Mirrored) (keep : ObjId → Prop)
    (shapes : ∀ x, keep x → m'.shape? x = m.shape? x)
    (classes : ∀ x q, keep x → m.shape? x = some (.plain, q) →
      m'.classOf (.obj x) = m.classOf (.obj x))
    (plain : ∀ c q, m'.shape? c = some (.plain, q) → keep c)
    (onward : ∀ c q, keep c → m.shape? c = some (.plain, q) →
      keep (m.classOf (.obj c)) ∧ ∀ p, q = some p → keep p)
    (builtin : ∀ b ∈ Builtin.tower, keep b.id) : m'.Mirrored where
  own := by
    intro c parent shape
    have kept := plain c parent shape
    have before := (shapes c kept).symm.trans shape
    obtain ⟨keptMeta, keptParent⟩ := onward c parent kept before
    rw [classes c parent kept before, shapes _ keptMeta, mirrored.own c parent before]
    cases parent with
    | none => rfl
    | some p =>
        obtain ⟨q, plainParent⟩ := mirrored.parent c p before
        rw [metaParent, metaParent, Option.map_some, Option.map_some,
          classes p q (keptParent p rfl) plainParent]
  parent := by
    intro c p shape
    have kept := plain c _ shape
    have before := (shapes c kept).symm.trans shape
    obtain ⟨q, plainParent⟩ := mirrored.parent c p before
    exact ⟨q, (shapes p ((onward c _ kept before).2 p rfl)).trans plainParent⟩
  root := by
    intro c shape
    exact mirrored.root c ((shapes c (plain c _ shape)).symm.trans shape)
  builtin := fun b member => (shapes _ (builtin b member)).trans (mirrored.builtin b member)

theorem Mirrored.live_own (mirrored : m.Mirrored) (shape : m.shape? c = some (.plain, parent)) :
    m.Live (m.classOf (.obj c)) := live_of_shape? (mirrored.own c parent shape)

/-- Everything that lived and was a class is what it was, and no plain class is new. -/
theorem Mirrored.of_live (mirrored : m.Mirrored)
    (shapes : ∀ x, m.Live x → m'.shape? x = m.shape? x)
    (classes : ∀ x q, m.shape? x = some (.plain, q) → m'.classOf (.obj x) = m.classOf (.obj x))
    (plain : ∀ c q, m'.shape? c = some (.plain, q) → m.Live c) : m'.Mirrored := by
  refine mirrored.of_kept m.Live shapes (fun x q _ => classes x q) plain ?_ ?_
  · intro c q _ shape
    refine ⟨mirrored.live_own shape, ?_⟩
    intro p same
    subst same
    obtain ⟨q, plainParent⟩ := mirrored.parent c p shape
    exact live_of_shape? plainParent
  · exact fun b member => live_of_shape? (mirrored.builtin b member)

/-! ## New machines -/

theorem mirrored_of_checks
    (checks : ∀ c ∈ m.heap.liveIds, ∀ shape ∈ (m.shape? c).toList, shape.1 = .plain →
      m.shape? (m.classOf (.obj c)) =
          some (.singleton (.obj c), some (m.metaParent shape.2)) ∧
        (∀ p ∈ shape.2, (m.shape? p).map (·.1) = some .plain) ∧
        (shape.2 = none → c = Builtin.basicObject.id))
    (builtin : ∀ b ∈ Builtin.tower, m.shape? b.id = some (.plain, b.parent?.map (·.id))) :
    m.Mirrored := by
  have at' := fun c parent (shape : m.shape? c = some (.plain, parent)) =>
    checks c (Heap.mem_liveIds.mpr (live_of_shape? shape)) (.plain, parent)
      (Option.mem_toList.mpr shape) rfl
  refine ⟨fun c parent shape => (at' c parent shape).1, ?_, ?_, builtin⟩
  · intro c p shape
    obtain ⟨⟨kind, q⟩, found, same⟩ := Option.map_eq_some_iff.mp ((at' c _ shape).2.1 p rfl)
    cases same
    exact ⟨q, found⟩
  · exact fun c shape => (at' c none shape).2.2 rfl

theorem Mirrored.renamed (mirrored : m.Mirrored) (h : Handle) (config : Config) :
    (m.renamed h config).Mirrored :=
  ⟨mirrored.own, mirrored.parent, mirrored.root, mirrored.builtin⟩

theorem shape?_renamed (h : Handle) (config : Config) :
    (m.renamed h config).shape? c = m.shape? c := rfl

theorem shape?_sample : ∀ b ∈ Builtin.all, b ≠ .kernel →
    sample.shape? b.id = some (.plain, b.parent?.map (·.id)) := by
  decide +kernel

theorem shape?_opened (h : Handle) (config : Config) (b : Builtin) (proper : b ≠ .kernel) :
    (opened h config).shape? b.id = some (.plain, b.parent?.map (·.id)) := by
  rw [opened_eq, shape?_renamed]
  exact shape?_sample b (by cases b <;> decide) proper

theorem mirrored_opened (h : Handle) (config : Config) : (opened h config).Mirrored := by
  have sampled : sample.Mirrored := by
    refine mirrored_of_checks (by decide +kernel) fun b member => ?_
    exact shape?_sample b (by cases b <;> decide) (by rintro rfl; revert member; decide)
  rw [opened_eq]
  exact sampled.renamed h config

end Machine

/-! ## What makes no classes -/

section Changes

variable {g : Grant} {m m' : Machine} {x : ObjId} {o o' : Object}

theorem Touch.shape?_eq (how : Touch g m x o o') (unedited : g.edits = none) :
    o'.shape? = o.shape? := by
  have other : ∀ {b : Body}, o.classData? = none →
      ({ o with body := b } : Object).classData? = none →
        ({ o with body := b } : Object).shape? = o.shape? := by
    intro b before after
    rw [Object.shape?, Object.shape?, before, after]
  cases how with
  | freeze => rfl
  | ivar => rfl
  | reclass => rfl
  | edit e may =>
      rw [unedited] at may
      cases may
  | const c s v body => simp [Object.shape?, Object.classData?, body]
  | method c s method body => simp [Object.shape?, Object.classData?, body]
  | unmethod c s body => simp [Object.shape?, Object.classData?, body]
  | items before after body => exact other (by simp [Object.classData?, body]) rfl
  | bytes before after body => exact other (by simp [Object.classData?, body]) rfl
  | table before after body => exact other (by simp [Object.classData?, body]) rfl
  | removal t position body => exact other (by simp [Object.classData?, body]) rfl
  | install p c noArg body => exact other (by simp [Object.classData?, body]) rfl
  | rebind p env body => exact other (by simp [Object.classData?, body]) rfl
  | write q values after isShared body => exact other (by simp [Object.classData?, body]) rfl

theorem Touch.cls_eq (how : Touch g m x o o') (unfounding : g.founds = false) : o'.cls = o.cls := by
  cases how with
  | reclass s own may below =>
      rw [unfounding] at may
      cases may
  | edit e => cases e <;> rfl
  | _ => rfl

/-- A class stays below the same class and of the same kind while it lives. -/
theorem Evolution.shape?_eq (evolution : Evolution g m m') (tidy : m.heap.Tidy)
    (quiet : g.sweeps = false) (unedited : g.edits = none) (live : m.Live x) :
    m'.shape? x = m.shape? x := by
  induction evolution with
  | refl => rfl
  | tail earlier change ih =>
      obtain ⟨o, present⟩ := (Evolution.live earlier tidy quiet live).object?
      rw [← ih, Machine.shape?_of_object? present]
      rcases change.object?_after (Evolution.tidy earlier tidy) present with same |
        ⟨o', after, how⟩ | ⟨p, env, body, after⟩ | ⟨sweeps, -⟩
      · exact Machine.shape?_of_object? same
      · exact (Machine.shape?_of_object? after).trans (how.shape?_eq unedited)
      · rw [Machine.shape?_of_object? after]
        simp [Object.shape?, Object.classData?, body]
      · rw [quiet] at sweeps
        cases sweeps

theorem Evolution.classOf_eq (evolution : Evolution g m m') (tidy : m.heap.Tidy)
    (quiet : g.sweeps = false) (unfounding : g.founds = false) (live : m.Live x) :
    m'.classOf (.obj x) = m.classOf (.obj x) := by
  induction evolution with
  | refl => rfl
  | tail earlier change ih =>
      obtain ⟨o, present⟩ := (Evolution.live earlier tidy quiet live).object?
      rw [← ih, Machine.classOf_of_object? present]
      rcases change.object?_after (Evolution.tidy earlier tidy) present with same |
        ⟨o', after, how⟩ | ⟨p, env, body, after⟩ | ⟨sweeps, -⟩
      · exact Machine.classOf_of_object? same
      · exact (Machine.classOf_of_object? after).trans (how.cls_eq unfounding)
      · exact (Machine.classOf_of_object? after).trans rfl
      · rw [quiet] at sweeps
        cases sweeps

theorem Machine.Mirrored.put (mirrored : m.Mirrored) (present : m.object? x = some o)
    (shape : o'.shape? = o.shape?) (cls : o'.cls = o.cls) : (m.put x o').Mirrored := by
  have shapes : ∀ y, (m.put x o').shape? y = m.shape? y := by
    intro y
    rw [Machine.shape?, Machine.shape?, Machine.object?_put]
    split
    case isTrue same =>
        subst same
        rw [present]
        exact shape
    case isFalse => rfl
  have classes : ∀ y, (m.put x o').classOf (.obj y) = m.classOf (.obj y) := by
    intro y
    rw [Machine.classOf, Machine.classOf, Machine.object?_put]
    split
    case isTrue same =>
        subst same
        rw [present]
        exact cls
    case isFalse => rfl
  exact mirrored.of_live (fun y _ => shapes y) (fun y q _ => classes y)
    fun c q shape => Machine.live_of_shape? ((shapes c).symm.trans shape)

/-- A new object that is no plain class. -/
theorem Machine.Mirrored.withNew (mirrored : m.Mirrored) (tidy : m.heap.Tidy)
    (other : ∀ q, o.shape? ≠ some (.plain, q)) : (m.withNew o).Mirrored := by
  refine mirrored.of_live ?_ ?_ ?_
  · intro y live
    rw [Machine.shape?_withNew tidy, if_neg (Machine.ne_newId tidy o live)]
  · exact fun y q shape => Machine.classOf_withNew tidy o (Machine.live_of_shape? shape)
  · intro c q shape
    rw [Machine.shape?_withNew tidy] at shape
    split at shape
    · exact absurd shape (other q)
    · exact Machine.live_of_shape? shape

theorem Machine.Mirrored.collect (mirrored : m.Mirrored) (tidy : m.heap.Tidy) :
    ({ m with heap := (m.heap.collect m.roots).2 } : Machine).Mirrored := by
  have same : ∀ y, ({ m with heap := (m.heap.collect m.roots).2 } : Machine).Live y →
      ({ m with heap := (m.heap.collect m.roots).2 } : Machine).object? y = m.object? y := by
    intro y live
    obtain ⟨p, left⟩ := live.object?
    have before : m.object? y = some p := Heap.get?_of_get?_collect left
    exact left.trans before.symm
  refine mirrored.of_kept _ ?_ ?_ (fun c q shape => Machine.live_of_shape? shape) ?_ ?_
  · intro y live
    rw [Machine.shape?, same y live]
    rfl
  · intro y q live _
    rw [Machine.classOf, same y live]
    rfl
  · -- What is left keeps the classes that it names.
    intro c q live shape
    obtain ⟨o, left⟩ := live.object?
    have before := (same c live).symm.trans left
    have reaches : ∀ y, y ∈ o.references → m.Live y →
        ({ m with heap := (m.heap.collect m.roots).2 } : Machine).Live y := by
      intro y named alive
      obtain ⟨p, present⟩ := alive.object?
      exact .of_object? (Heap.get?_collect_of_reference tidy left named present)
    constructor
    · refine reaches _ ?_ (mirrored.live_own shape)
      rw [Machine.classOf_of_object? before]
      exact List.mem_cons_self
    · intro p parent
      subst parent
      obtain ⟨q, plainParent⟩ := mirrored.parent c p shape
      refine reaches p (Object.mem_references_of_body ?_) (Machine.live_of_shape? plainParent)
      rw [Machine.shape?_of_object? before, Object.shape?, Option.map_eq_some_iff] at shape
      obtain ⟨data, isClass, same⟩ := shape
      rw [Object.classData?_eq_some.mp isClass]
      exact ClassData.mem_references.mpr (.inl (congrArg Prod.snd same))
  · intro b member
    obtain ⟨o, present⟩ := (Machine.live_of_shape? (mirrored.builtin b member)).object?
    exact .of_object? (Heap.get?_collect_of_root present
      (.inl (Machine.mem_roots.mpr (.inl ⟨b, rfl⟩))))

theorem Change.mirrored (change : Change g m m') (tidy : m.heap.Tidy)
    (unfounding : g.founds = false) (unedited : g.edits = none) (mirrored : m.Mirrored) :
    m'.Mirrored := by
  cases change with
  | alloc o born known founded =>
      refine mirrored.withNew tidy fun q shape => ?_
      rw [Object.shape?, Option.map_eq_some_iff] at shape
      obtain ⟨data, isClass, -⟩ := shape
      have may := (founded data (Object.classData?_eq_some.mp isClass)).1
      rw [unfounding] at may
      cases may
  | touch x o o' live how =>
      exact mirrored.put live (how.shape?_eq unedited) (how.cls_eq unfounding)
  | attach x o p values live body =>
      have other : ∀ q, (Object.env values).shape? ≠ some (.plain, q) := by
        intro q
        simp [Object.shape?, Object.classData?, Object.env]
      refine (mirrored.withNew tidy other).put (o := o) ?_ ?_ rfl
      · exact Machine.object?_withNew_of_live tidy _ live
      · simp [Object.shape?, Object.classData?, body]
  | collect => exact mirrored.collect tidy
  | _ => exact ⟨mirrored.own, mirrored.parent, mirrored.root, mirrored.builtin⟩

theorem Evolution.mirrored (evolution : Evolution g m m') (tidy : m.heap.Tidy)
    (unfounding : g.founds = false) (unedited : g.edits = none) (mirrored : m.Mirrored) :
    m'.Mirrored := by
  induction evolution with
  | refl => exact mirrored
  | tail earlier change ih =>
      exact change.mirrored (Evolution.tidy earlier tidy) unfounding unedited ih

end Changes

/-! ## What makes classes -/

namespace Machine

variable {m m' : Machine} {c p id superclass : ObjId} {o : Object}

def singletonOf (id superclass : ObjId) : Object :=
  { cls := Builtin.classClass.id
    body := .class { name := none, superclass := some superclass, kind := .singleton (.obj id) } }

/-- The machine with a new singleton class for an object. -/
def withSingleton (m : Machine) (id superclass : ObjId) : Machine :=
  { m.withNew (singletonOf id superclass) with
    heap := (m.withNew (singletonOf id superclass)).heap.modify id fun o =>
      { o with cls := m.newId (singletonOf id superclass) } }

theorem shape?_withSingleton (tidy : m.heap.Tidy) (x : ObjId) :
    (m.withSingleton id superclass).shape? x =
      if x = m.newId (singletonOf id superclass) then
        some (.singleton (.obj id), some superclass) else m.shape? x := by
  have modified := shape?_modify (m := m.withNew (singletonOf id superclass)) id
    (f := fun o => { o with cls := m.newId (singletonOf id superclass) }) (fun _ => rfl) x
  rw [withSingleton, modified, shape?_withNew tidy]
  rfl

theorem shape?_withSingleton_of_live (tidy : m.heap.Tidy) {x : ObjId} (live : m.Live x) :
    (m.withSingleton id superclass).shape? x = m.shape? x := by
  rw [shape?_withSingleton tidy, if_neg (ne_newId tidy _ live)]

theorem classOf_withSingleton (tidy : m.heap.Tidy) {x : ObjId} (live : m.Live x) :
    (m.withSingleton id superclass).classOf (.obj x) =
      if x = id then m.newId (singletonOf id superclass) else m.classOf (.obj x) := by
  obtain ⟨o, present⟩ := (live_withNew tidy (singletonOf id superclass) live).object?
  rw [withSingleton, classOf, object?_modify,
    ← classOf_withNew tidy (singletonOf id superclass) live, classOf_of_object? present, present]
  split <;> rfl

theorem Mirrored.withSingleton (mirrored : m.Mirrored) (tidy : m.heap.Tidy)
    (other : ∀ q, m.shape? id ≠ some (.plain, q)) : (m.withSingleton id superclass).Mirrored := by
  refine mirrored.of_live (fun x live => shape?_withSingleton_of_live tidy live) ?_ ?_
  · intro x q shape
    rw [classOf_withSingleton tidy (live_of_shape? shape), if_neg]
    intro same
    subst same
    exact other q shape
  · intro x q shape
    rw [shape?_withSingleton tidy] at shape
    split at shape
    · cases shape
    · exact live_of_shape? shape

/-- A new class below a class that was there, with its singleton class. -/
theorem Mirrored.of_founded (mirrored : m.Mirrored) {q : Option ObjId}
    (plainParent : m.shape? p = some (.plain, q))
    (shapes : ∀ x, m.Live x → m'.shape? x = m.shape? x)
    (classes : ∀ x, m.Live x → m'.classOf (.obj x) = m.classOf (.obj x))
    (new : m'.shape? c = some (.plain, some p))
    (own : m'.shape? (m'.classOf (.obj c)) =
      some (.singleton (.obj c), some (m.classOf (.obj p))))
    (plain : ∀ x q, m'.shape? x = some (.plain, q) → m.Live x ∨ x = c) : m'.Mirrored := by
  have before : ∀ x q, m'.shape? x = some (.plain, q) → x ≠ c → m.shape? x = some (.plain, q) := by
    intro x q shape apart
    exact (shapes x ((plain x q shape).resolve_right apart)).symm.trans shape
  have still : ∀ p q, m.shape? p = some (.plain, q) → m'.shape? p = some (.plain, q) :=
    fun p q shape => (shapes p (live_of_shape? shape)).trans shape
  constructor
  case own =>
    intro x parent shape
    by_cases same : x = c
    · subst same
      cases new.symm.trans shape
      rw [own, metaParent, Option.map_some, classes p (live_of_shape? plainParent)]
      rfl
    · have shape := before x parent shape same
      rw [classes x (live_of_shape? shape), shapes _ (mirrored.live_own shape),
        mirrored.own x parent shape]
      cases parent with
      | none => rfl
      | some p =>
          obtain ⟨q, plainParent⟩ := mirrored.parent x p shape
          rw [metaParent, metaParent, Option.map_some, Option.map_some,
            classes p (live_of_shape? plainParent)]
  case parent =>
    intro x p' shape
    by_cases same : x = c
    · subst same
      cases new.symm.trans shape
      exact ⟨q, still p q plainParent⟩
    · obtain ⟨q, plainParent⟩ := mirrored.parent x p' (before x _ shape same)
      exact ⟨q, still p' q plainParent⟩
  case root =>
    intro x shape
    by_cases same : x = c
    · subst same
      cases new.symm.trans shape
    · exact mirrored.root x (before x _ shape same)
  case builtin => exact fun b member => still _ _ (mirrored.builtin b member)

end Machine

namespace Act

variable {α β : Type} {g : Grant} {m : Machine}

/-- Begun in a tidy and mirrored machine the action ends in one, with a result or an exception. -/
def Restores (a : Act α) (m : Machine) : Prop :=
  m.heap.Tidy → m.Mirrored →
    match a.run.run m with
    | (.ok _, m') => m'.heap.Tidy ∧ m'.Mirrored
    | (.error (.raised _), m') => m'.heap.Tidy ∧ m'.Mirrored
    | (.error .endless, _) => True

namespace Restores

theorem ensures {a : Act α} (restores : Restores a m) (tidy : m.heap.Tidy)
    (mirrored : m.Mirrored) :
    Ensures a m (fun _ m' => m'.heap.Tidy ∧ m'.Mirrored) fun _ m' => m'.heap.Tidy ∧ m'.Mirrored :=
  restores tidy mirrored

theorem of_ensures {a : Act α} (ensures : m.heap.Tidy → m.Mirrored →
    Ensures a m (fun _ m' => m'.heap.Tidy ∧ m'.Mirrored) fun _ m' => m'.heap.Tidy ∧ m'.Mirrored) :
    Restores a m := ensures

theorem of_run {a : Act α} {x : α} {m' : Machine} (ran : a.run.run m = (.ok x, m'))
    (ends : m.heap.Tidy → m.Mirrored → m'.heap.Tidy ∧ m'.Mirrored) : Restores a m := by
  intro tidy mirrored
  rw [ran]
  exact ends tidy mirrored

protected theorem pure (x : α) : Restores (pure x) m :=
  of_run rfl fun tidy mirrored => ⟨tidy, mirrored⟩

protected theorem bind {a : Act α} {b : α → Act β} (first : Restores a m)
    (rest : ∀ x m', Restores (b x) m') : Restores (a >>= b) m :=
  of_ensures fun tidy mirrored => (first.ensures tidy mirrored).bind fun x middle before =>
    (rest x middle).ensures before.1 before.2

theorem of_run_eq {a b : Act α} (restores : Restores a m) (same : b.run.run m = a.run.run m) :
    Restores b m := by
  intro tidy mirrored
  rw [same]
  exact restores tidy mirrored

theorem of_mirrored {a : Act α} (restores : m.heap.Tidy → m.Mirrored → Restores a m) :
    Restores a m := fun tidy mirrored => restores tidy mirrored tidy mirrored

theorem get_bind {f : Machine → Act β} (rest : Restores (f m) m) :
    Restores ((get : Act Machine) >>= f) m := rest

/-- What makes no classes keeps the machine mirrored all along. -/
theorem of_does {a : Act α} {post : α → Machine → Prop} (does : Does g a m post)
    (unfounding : g.founds = false) (unedited : g.edits = none) : Restores a m := by
  refine of_ensures fun tidy mirrored => ?_
  have ends : ∀ {m'}, Evolution g m m' → m'.heap.Tidy ∧ m'.Mirrored := fun evolution =>
    ⟨evolution.tidy tidy, evolution.mirrored tidy unfounding unedited mirrored⟩
  exact (does.ensures tidy).mono (fun _ _ did => ends did.1) fun _ _ did => ends did.1

protected theorem attempt {a : Act α} (restores : Restores a m) : Restores (attempt a) m :=
  of_ensures fun tidy mirrored => (restores.ensures tidy mirrored).attempt (fun _ _ ends => ends)
    fun _ _ ends => ends

end Restores

theorem restores_fail_bind (b : Builtin) (message : String) (rest : α → Act β) :
    Restores (fail b message >>= rest) m :=
  .of_does (g := {}) (does_fail_bind b message rest fun _ _ => True) rfl rfl

/-! ## Singleton classes -/

theorem run_singletonWithin_of_own {id : ObjId} {o : Object} (present : m.object? id = some o)
    (own : isSingletonOf m o.cls (.obj id) = true) (n : Nat) :
    (singletonWithin (n + 1) (.obj id)).run.run m = (.ok o.cls, m) := by
  unfold singletonWithin
  rw [run_get_bind]
  simp only [Value.asObj, Option.bind_some, present, Option.map_some, own, if_true]
  rfl

/-- A class without a singleton class gets one below that of its superclass. -/
theorem run_singletonWithin_of_parent {c p : ObjId} {o : Object} {data : ClassData}
    (present : m.object? c = some o) (foreign : ¬ isSingletonOf m o.cls (.obj c) = true)
    (isClass : m.classData? c = some data) (plain : data.kind = .plain)
    (below : data.superclass = some p) (n : Nat) :
    (singletonWithin (n + 1) (.obj c)).run.run m =
      match (singletonWithin n (.obj p)).run.run m with
      | (.ok s, m') => (.ok (m'.newId (Machine.singletonOf c s)), m'.withSingleton c s)
      | (.error h, m') => (.error h, m') := by
  obtain ⟨name, superclass, kind, methods, consts⟩ := data
  cases plain
  cases below
  rw [singletonWithin, run_get_bind]
  simp only [Value.asObj, Option.bind_some, present, Option.map_some, foreign, isClass]
  change ((singletonWithin n (.obj p)) >>= _).run.run m = _
  rw [run_bind]
  rcases (singletonWithin n (.obj p)).run.run m with ⟨h | s, m'⟩ <;> rfl

/-- Any other object without a singleton class gets one below its class. -/
theorem run_singletonWithin_of_rootless {id : ObjId} {o : Object} (present : m.object? id = some o)
    (foreign : ¬ isSingletonOf m o.cls (.obj id) = true)
    (other : ∀ data p, m.classData? id = some data → data.kind = .plain →
      data.superclass ≠ some p) (n : Nat) :
    (singletonWithin (n + 1) (.obj id)).run.run m =
      (.ok (m.newId (Machine.singletonOf id o.cls)), m.withSingleton id o.cls) := by
  rw [singletonWithin, run_get_bind]
  simp only [Value.asObj, Option.bind_some, present, Option.map_some]
  rw [if_neg foreign]
  split
  case h_1 parent _ _ isClass => exact (other _ parent isClass rfl rfl).elim
  case h_2 => rfl

theorem run_singletonClass_of_parent {c p : ObjId} {o parent : Object} {data : ClassData}
    (present : m.object? c = some o) (foreign : ¬ isSingletonOf m o.cls (.obj c) = true)
    (isClass : m.classData? c = some data) (plain : data.kind = .plain)
    (below : data.superclass = some p) (above : m.object? p = some parent)
    (own : isSingletonOf m parent.cls (.obj p) = true) :
    (singletonClass (.obj c)).run.run m =
      (.ok (m.newId (Machine.singletonOf c parent.cls)), m.withSingleton c parent.cls) := by
  obtain ⟨n, size⟩ : ∃ n, m.heap.slots.size = n + 1 :=
    Nat.exists_eq_succ_of_ne_zero (Nat.ne_zero_of_lt (Heap.slot_lt_of_get? present))
  have inherited := run_singletonWithin_of_own above own n
  unfold singletonClass
  rw [run_get_bind, run_singletonWithin_of_parent present foreign isClass plain below, size,
    inherited]

theorem restores_singletonClass (v : Value) : Restores (singletonClass v) m := by
  unfold singletonClass singletonWithin
  refine .get_bind (.get_bind ?_)
  split
  case h_1 => exact .of_does (g := {}) (does_fail _ _ fun _ _ => True) rfl rfl
  case h_2 id o found =>
    obtain ⟨rfl, present⟩ : v = .obj id ∧ m.object? id = some o := by
      cases v with
      | obj x =>
          obtain ⟨p, live, same⟩ := Option.map_eq_some_iff.mp found
          cases same
          exact ⟨rfl, live⟩
      | _ => cases found
    split
    case isTrue => exact .pure _
    case isFalse foreign =>
      refine .of_mirrored fun tidy mirrored => ?_
      -- A plain class has its own singleton class, so this is none.
      have other : ∀ q, m.shape? id ≠ some (.plain, q) := by
        intro q shape
        refine foreign (Machine.isSingletonOf_iff.mpr ⟨some (m.metaParent q), ?_⟩)
        rw [← Machine.classOf_of_object? present]
        exact mirrored.own id q shape
      dsimp only
      split
      case h_1 parent _ _ isClass =>
        refine absurd ?_ (other (some parent))
        rw [Machine.shape?_eq, isClass]
        rfl
      case h_2 =>
        have ends : (m.withSingleton id o.cls).heap.Tidy ∧ (m.withSingleton id o.cls).Mirrored :=
          ⟨(tidy.alloc _).modify id _, mirrored.withSingleton tidy other⟩
        exact .of_run rfl fun _ _ => ends

/-! ## Modules and classes -/

def classObject (s : Option Sym) (superclass : Option ObjId) (kind : ClassKind) : Object :=
  { cls := (if kind = .module then Builtin.module else Builtin.classClass).id
    body := .class { name := s, superclass := superclass, kind := kind } }

theorem run_newClass (name : String) (superclass : Option ObjId) (kind : ClassKind) :
    ∃ symbols s, (newClass name superclass kind).run.run m =
      (.ok (({ m with symbols := symbols } : Machine).newId (classObject s superclass kind)),
        ({ m with symbols := symbols } : Machine).withNew (classObject s superclass kind)) := by
  unfold newClass
  by_cases nameless : name.isEmpty = true
  · rw [if_pos nameless]
    exact ⟨m.symbols, none, rfl⟩
  · rw [if_neg nameless]
    exact ⟨(m.symbols.intern name).2, some (m.symbols.intern name).1, rfl⟩

theorem restores_defineModule (outer : ObjId) (name : String) :
    Restores (defineModule outer name) m := by
  refine .bind (.of_does (g := {}) (does_intern name) rfl rfl) fun s m => .get_bind ?_
  split
  case h_1 bound _ =>
    dsimp only
    split
    · exact restores_fail_bind _ _ _
    · exact .of_does (g := {}) (does_expectClass bound) rfl rfl
  case h_2 =>
    refine .bind ?_ fun id m => ?_
    · obtain ⟨symbols, s, ran⟩ := run_newClass (m := m) name none .module
      refine .of_run ran fun tidy mirrored => ⟨Heap.Tidy.alloc tidy _, ?_⟩
      have same : ({ m with symbols := symbols } : Machine).Mirrored :=
        ⟨mirrored.own, mirrored.parent, mirrored.root, mirrored.builtin⟩
      exact same.withNew tidy fun q => nofun
    · refine .bind (.of_does (g := { ids := [id], names := some outer })
        (does_putConst outer s (.obj id) (fun _ _ => .inr rfl) ?_) rfl rfl) fun _ _ => .pure _
      exact fun x member => .handed member

section Founding

variable {p : ObjId} {q : Option ObjId} {s : Option Sym}

/-- The machine with a new class below another. -/
def withClass (m : Machine) (s : Option Sym) (p : ObjId) : Machine :=
  (m.withNew (classObject s (some p) .plain)).withSingleton
    (m.newId (classObject s (some p) .plain)) (m.classOf (.obj p))

theorem run_singletonClass_new (tidy : m.heap.Tidy) (mirrored : m.Mirrored)
    (plainParent : m.shape? p = some (.plain, q)) :
    ∃ x, (singletonClass (.obj (m.newId (classObject s (some p) .plain)))).run.run
      (m.withNew (classObject s (some p) .plain)) = (.ok x, withClass m s p) := by
  let o := classObject s (some p) .plain
  let made := m.withNew o
  have present : made.object? (m.newId o) = some o := by
    rw [Machine.object?_withNew tidy, if_pos rfl]
  have old : ∀ x shape, m.shape? x = some shape → made.shape? x = some shape := by
    intro x shape found
    have apart := Machine.ne_newId tidy o (Machine.live_of_shape? found)
    rw [Machine.shape?_withNew tidy, if_neg apart, found]
  have foreign : ¬ isSingletonOf made o.cls (.obj (m.newId o)) = true := by
    intro own
    obtain ⟨r, shape⟩ := Machine.isSingletonOf_iff.mp own
    have plain := old _ _ (mirrored.builtin .classClass (by decide))
    cases plain.symm.trans shape
  obtain ⟨parent, alive⟩ := (Machine.live_of_shape? (old p _ plainParent)).object?
  have cls : m.classOf (.obj p) = parent.cls := by
    rw [← Machine.classOf_withNew tidy o (Machine.live_of_shape? plainParent),
      Machine.classOf_of_object? alive]
  have own : isSingletonOf made parent.cls (.obj p) = true := by
    rw [← cls]
    exact Machine.isSingletonOf_iff.mpr ⟨_, old _ _ (mirrored.own p q plainParent)⟩
  refine ⟨made.newId (Machine.singletonOf (m.newId o) parent.cls), ?_⟩
  rw [withClass, cls]
  exact run_singletonClass_of_parent present foreign
    (Machine.classData?_eq_some.mpr ⟨o, present, rfl⟩) rfl rfl alive own

theorem mirrored_withClass (tidy : m.heap.Tidy) (mirrored : m.Mirrored)
    (plainParent : m.shape? p = some (.plain, q)) : (withClass m s p).Mirrored := by
  let o := classObject s (some p) .plain
  have tidy' : (m.withNew o).heap.Tidy := tidy.alloc o
  have born : (m.withNew o).Live (m.newId o) := Machine.live_newId tidy o
  have apart : ∀ x, m.Live x → x ≠ m.newId o := fun x => Machine.ne_newId tidy o
  refine mirrored.of_founded (c := m.newId o) plainParent ?_ ?_ ?_ ?_ ?_
  · intro x live
    rw [withClass, Machine.shape?_withSingleton_of_live tidy' (Machine.live_withNew tidy o live),
      Machine.shape?_withNew tidy, if_neg (apart x live)]
  · intro x live
    rw [withClass, Machine.classOf_withSingleton tidy' (Machine.live_withNew tidy o live),
      if_neg (apart x live), Machine.classOf_withNew tidy o live]
  · rw [withClass, Machine.shape?_withSingleton_of_live tidy' born, Machine.shape?_withNew tidy,
      if_pos rfl]
    rfl
  · rw [withClass, Machine.classOf_withSingleton tidy' born, if_pos rfl,
      Machine.shape?_withSingleton tidy', if_pos rfl]
  · intro x r shape
    rw [withClass, Machine.shape?_withSingleton tidy'] at shape
    split at shape
    · cases shape
    · rw [Machine.shape?_withNew tidy] at shape
      split at shape
      case isTrue same => exact .inr same
      case isFalse => exact .inl (Machine.live_of_shape? shape)

end Founding

/-- A class is mirrored again once its singleton class is there. -/
theorem restores_founding (label : String) {p : ObjId} (plain : m.typeOf (.obj p) = .plainClass) :
    Restores (do
      let id ← newClass label (some p) .plain
      let _ ← singletonClass (.obj id)
      return id) m := by
  refine .of_mirrored fun tidy mirrored => ?_
  obtain ⟨symbols, name, made⟩ := run_newClass (m := m) label (some p) .plain
  have same : ({ m with symbols := symbols } : Machine).Mirrored :=
    ⟨mirrored.own, mirrored.parent, mirrored.root, mirrored.builtin⟩
  have plainParent := Machine.shape?_of_plain plain
  obtain ⟨x, founded⟩ := run_singletonClass_new (s := name) (m := { m with symbols := symbols })
    tidy same plainParent
  have ends : (withClass { m with symbols := symbols } name p).heap.Tidy ∧
      (withClass { m with symbols := symbols } name p).Mirrored :=
    ⟨Heap.Tidy.modify (Heap.Tidy.alloc (Heap.Tidy.alloc tidy _) _) _ _,
      mirrored_withClass tidy same plainParent⟩
  refine .of_run (x := Machine.newId { m with symbols := symbols }
    (classObject name (some p) .plain)) ?_ fun _ _ => ends
  rw [run_ok_bind made, run_bind, founded]
  rfl

theorem restores_defineClass (outer : ObjId) (label : String) (superclass : Option ObjId) :
    Restores (defineClass outer label superclass) m := by
  refine .bind (.of_does (g := {}) (does_intern label) rfl rfl) fun s m => .get_bind ?_
  split
  case h_1 bound _ =>
    dsimp only
    split
    · exact restores_fail_bind _ _ _
    refine .bind (.of_does (g := {}) (does_expectClass bound) rfl rfl) fun id m => ?_
    cases superclass with
    | none => exact .pure _
    | some parent =>
        dsimp only
        split
        · exact restores_fail_bind _ _ _
        · exact .pure _
  case h_2 =>
    dsimp only
    split
    · exact restores_fail_bind _ _ _
    rename_i plain
    have bound := (restores_founding label (Decidable.not_not.mp plain)).bind (b := fun id => do
      putConst outer s (.obj id)
      return id) fun id m => .bind
        (.of_does (g := { ids := [id], names := some outer })
          (does_putConst outer s (.obj id) (fun _ _ => .inr rfl) fun x member => .handed member)
          rfl rfl) fun _ _ => .pure _
    simpa only [bind_assoc, pure_bind] using bound

theorem restores_defineCallable (form : Form) (place : Placement) (name : String) (n : Nat)
    (aspec : Aspec) : Restores (defineCallable form place name n aspec) m := by
  have installing : ∀ c m, Restores (defineBridged form c name n aspec) m := fun c m =>
    .of_does (does_defineBridged form c name n aspec false) rfl rfl
  have above : ∀ v, Restores (defineBridgedOn form v name n aspec) m := fun v =>
    .bind (restores_singletonClass v) installing
  cases place with
  | method c => exact installing c m
  | classMethod c => exact above (.obj c)
  | singletonMethod v => exact above v
  | moduleFunction c => exact .bind (above (.obj c)) fun _ => installing c

end Act

end GuestVM
