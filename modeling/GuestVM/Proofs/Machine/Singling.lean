import GuestVM.Proofs.Machine.Climbing

/-! # How singleton classes come about

An object that has a singleton class keeps it.  A class below another gets one below the singleton
class of its superclass, which may have to be made first; anything else gets one below its class.
`Obtains` follows that recursion.  Whatever is made, what there was before keeps all but its class
(`Reclasses`), so a walk up the superclasses finds what it found. -/
set_option autoImplicit false

namespace GuestVM

namespace Machine

/-- The object `x` has or gets the singleton class `s`. -/
inductive Obtains (m : Machine) : ObjId → ObjId → Machine → Prop
  | kept {x : ObjId} {o : Object} (present : m.object? x = some o)
      (own : Act.isSingletonOf m o.cls (.obj x) = true) : Obtains m x o.cls m
  | under {x p s : ObjId} {o : Object} {middle : Machine} (present : m.object? x = some o)
      (foreign : ¬ Act.isSingletonOf m o.cls (.obj x) = true)
      (shape : m.shape? x = some (.plain, some p)) (above : Obtains m p s middle) :
      Obtains m x (middle.newId (singletonOf x s)) (middle.withSingleton x s)
  | rootless {x : ObjId} {o : Object} (present : m.object? x = some o)
      (foreign : ¬ Act.isSingletonOf m o.cls (.obj x) = true)
      (other : ∀ p, m.shape? x ≠ some (.plain, some p)) :
      Obtains m x (m.newId (singletonOf x o.cls)) (m.withSingleton x o.cls)

/-- What there is in `m` is in `m'` with nothing changed but its class. -/
def Reclasses (m m' : Machine) : Prop :=
  ∀ x o, m.object? x = some o → ∃ c, m'.object? x = some { o with cls := c }

variable {m m' : Machine} {c s x p : ObjId} {o : Object}

theorem tidy_withSingleton (tidy : m.heap.Tidy) (x p : ObjId) : (m.withSingleton x p).heap.Tidy :=
  (tidy.alloc _).modify x _

theorem object?_withSingleton (tidy : m.heap.Tidy) (present : m.object? x = some o) (p y : ObjId) :
    (m.withSingleton x p).object? y =
      if y = x then some { o with cls := m.newId (singletonOf x p) }
      else if y = m.newId (singletonOf x p) then some (singletonOf x p)
      else m.object? y := by
  have apart := ne_newId tidy (singletonOf x p) (.of_object? present)
  rw [withSingleton, object?_modify, object?_withNew tidy]
  by_cases same : y = x
  · subst same
    rw [if_pos rfl, if_pos rfl, if_neg apart, present]
    rfl
  · rw [if_neg same, if_neg same]

theorem object?_of_isSingletonOf (own : Act.isSingletonOf m s (.obj x) = true) :
    ∃ o data, m.object? s = some o ∧ o.body = .class data ∧ data.kind = .singleton (.obj x) := by
  obtain ⟨p, shape⟩ := isSingletonOf_iff.mp own
  obtain ⟨data, isClass, kind, -⟩ := shape?_eq_some.mp shape
  obtain ⟨o, present, body⟩ := classData?_eq_some.mp isClass
  exact ⟨o, data, present, body, kind⟩

theorem live_of_isSingletonOf (own : Act.isSingletonOf m s (.obj x) = true) : m.Live s := by
  obtain ⟨o, data, present, -⟩ := object?_of_isSingletonOf own
  exact .of_object? present

theorem isSingletonOf_withSingleton (tidy : m.heap.Tidy) (x p : ObjId) :
    Act.isSingletonOf (m.withSingleton x p) (m.newId (singletonOf x p)) (.obj x) = true := by
  refine isSingletonOf_iff.mpr ⟨some p, ?_⟩
  rw [shape?_withSingleton tidy, if_pos rfl]

/-! ## What stays -/

namespace Reclasses

theorem refl (m : Machine) : m.Reclasses m := fun _ o present => ⟨o.cls, present⟩

theorem trans {m'' : Machine} (first : m.Reclasses m') (second : m'.Reclasses m'') :
    m.Reclasses m'' := by
  intro x o present
  obtain ⟨c, between⟩ := first x o present
  obtain ⟨d, after⟩ := second x _ between
  exact ⟨d, after⟩

theorem live (same : m.Reclasses m') (live : m.Live c) : m'.Live c := by
  obtain ⟨o, present⟩ := live.object?
  obtain ⟨d, now⟩ := same c o present
  exact .of_object? now

theorem withSingleton (same : m.Reclasses m') (tidy : m'.heap.Tidy) (live : m.Live x) (p : ObjId) :
    m.Reclasses (m'.withSingleton x p) := by
  intro y o present
  obtain ⟨q, before⟩ := (same.live live).object?
  obtain ⟨d, now⟩ := same y o present
  rw [object?_withSingleton tidy before]
  by_cases self : y = x
  · subst self
    cases before.symm.trans now
    exact ⟨_, if_pos rfl⟩
  · exact ⟨d, by rw [if_neg self, if_neg (ne_newId tidy _ (.of_object? now)), now]⟩

theorem isFrozen_eq (same : m.Reclasses m') (live : m.Live c) :
    m'.isFrozen (.obj c) = m.isFrozen (.obj c) := by
  obtain ⟨o, present⟩ := live.object?
  obtain ⟨d, now⟩ := same c o present
  simp [isFrozen, present, now]

theorem typeOf_eq (same : m.Reclasses m') (live : m.Live c) :
    m'.typeOf (.obj c) = m.typeOf (.obj c) := by
  obtain ⟨o, present⟩ := live.object?
  obtain ⟨d, now⟩ := same c o present
  rw [typeOf_obj now, typeOf_obj present]
  rfl

theorem classData?_eq (same : m.Reclasses m') (live : m.Live c) :
    m'.classData? c = m.classData? c := by
  obtain ⟨o, present⟩ := live.object?
  obtain ⟨d, now⟩ := same c o present
  rw [classData?_eq_bind, classData?_eq_bind, present, now]
  rfl

theorem findMethod_eq (same : m.Reclasses m') (closed : m.Closed) (rooted : m.Rooted)
    (rooted' : m'.Rooted) (live : m.Live c) (mid : Sym) :
    m'.findMethod c mid = m.findMethod c mid := by
  refine rooted.findMethod_transfer rooted' m.Live ?_ ?_ ?_ live
  · exact fun _ _ _ above => live_superclass closed above
  · exact fun d alive => by rw [superclass?, superclass?, same.classData?_eq alive]
  · exact fun d alive => by rw [ownMethod?, ownMethod?, same.classData?_eq alive]

end Reclasses

/-! ## What is made -/

namespace Obtains

theorem live (obtains : m.Obtains x s m') : m.Live x := by
  cases obtains with
  | kept present => exact .of_object? present
  | under present => exact .of_object? present
  | rootless present => exact .of_object? present

theorem tidy (obtains : m.Obtains x s m') (tidy : m.heap.Tidy) : m'.heap.Tidy := by
  induction obtains with
  | kept => exact tidy
  | under _ _ _ _ ih => exact tidy_withSingleton ih _ _
  | rootless => exact tidy_withSingleton tidy _ _

theorem reclasses (obtains : m.Obtains x s m') (tidy : m.heap.Tidy) : m.Reclasses m' := by
  induction obtains with
  | kept => exact .refl m
  | under present _ _ above ih => exact ih.withSingleton (above.tidy tidy) (.of_object? present) _
  | rootless present => exact (Reclasses.refl m).withSingleton tidy (.of_object? present) _

theorem isSingletonOf (obtains : m.Obtains x s m') (tidy : m.heap.Tidy) :
    Act.isSingletonOf m' s (.obj x) = true := by
  cases obtains with
  | kept _ own => exact own
  | under _ _ _ above => exact isSingletonOf_withSingleton (above.tidy tidy) x _
  | rootless => exact isSingletonOf_withSingleton tidy x _

theorem classOf_eq (obtains : m.Obtains x s m') (tidy : m.heap.Tidy) : m'.classOf (.obj x) = s := by
  have live := obtains.live
  cases obtains with
  | kept present => exact classOf_of_object? present
  | under _ _ _ above =>
      rw [classOf_withSingleton (above.tidy tidy) ((above.reclasses tidy).live live), if_pos rfl]
  | rootless => rw [classOf_withSingleton tidy live, if_pos rfl]

/-- A singleton class that was not there before is thawed. -/
theorem kept_or_thawed (obtains : m.Obtains x s m') (tidy : m.heap.Tidy) :
    (m' = m ∧ Act.isSingletonOf m (m.classOf (.obj x)) (.obj x) = true) ∨
      m'.isFrozen (.obj s) = false := by
  have made : ∀ {n : Machine} (p : ObjId), n.heap.Tidy → n.Live x →
      (n.withSingleton x p).isFrozen (.obj (n.newId (singletonOf x p))) = false := by
    intro n p tidy live
    obtain ⟨o, present⟩ := live.object?
    rw [isFrozen, object?_withSingleton tidy present,
      if_neg (ne_newId tidy _ live).symm, if_pos rfl]
    rfl
  have live := obtains.live
  cases obtains with
  | kept present own => exact .inl ⟨rfl, by rwa [classOf_of_object? present]⟩
  | under _ _ _ above =>
      exact .inr (made _ (above.tidy tidy) ((above.reclasses tidy).live live))
  | rootless => exact .inr (made _ tidy live)

end Obtains

end Machine

namespace Act

variable {m m' : Machine} {s : ObjId}

/-- By recursion along the superclasses. -/
theorem obtains_of_singletonWithin {n : Nat} {v : Value} (tidy : m.heap.Tidy)
    (ran : (singletonWithin n v).run.run m = (.ok s, m')) : ∃ x, v = .obj x ∧ m.Obtains x s m' := by
  induction n generalizing v s m' with
  | zero => cases ran
  | succ n ih =>
      cases found : v.asObj.bind fun id => (m.object? id).map fun o => (id, o) with
      | none =>
          have failed := does_fail (g := {}) (m := m) (α := ObjId) .typeError
            "can't define singleton" (fun _ _ => False) tidy
          rw [singletonWithin, run_get_bind] at ran
          simp only [found] at ran
          rw [ran] at failed
          exact failed.2.elim
      | some pair =>
          obtain ⟨x, isObject, there⟩ := Option.bind_eq_some_iff.mp found
          obtain ⟨o, present, -⟩ := Option.map_eq_some_iff.mp there
          obtain rfl : v = .obj x := by cases v <;> cases isObject; rfl
          refine ⟨x, rfl, ?_⟩
          by_cases own : isSingletonOf m o.cls (.obj x) = true
          · rw [run_singletonWithin_of_own present own] at ran
            cases ran
            exact .kept present own
          by_cases parent : ∃ p, m.shape? x = some (.plain, some p)
          · obtain ⟨p, shape⟩ := parent
            obtain ⟨data, isClass, plain, below⟩ := Machine.shape?_eq_some.mp shape
            rw [run_singletonWithin_of_parent present own isClass plain below] at ran
            rcases inner : (singletonWithin n (.obj p)).run.run m with ⟨h | superclass, middle⟩
            · rw [inner] at ran
              cases ran
            · rw [inner] at ran
              cases ran
              obtain ⟨q, same, above⟩ := ih inner
              cases same
              exact .under present own shape above
          · have other : ∀ p, m.shape? x ≠ some (.plain, some p) := fun p shape => parent ⟨p, shape⟩
            rw [run_singletonWithin_of_rootless present own fun data p isClass plain below =>
              other p (Machine.shape?_eq_some.mpr ⟨data, isClass, plain, below⟩)] at ran
            cases ran
            exact .rootless present own other

theorem obtains_of_singletonClass {x : ObjId} (tidy : m.heap.Tidy)
    (ran : (singletonClass (.obj x)).run.run m = (.ok s, m')) : m.Obtains x s m' := by
  obtain ⟨y, same, obtains⟩ := obtains_of_singletonWithin tidy ran
  cases same
  exact obtains

end Act

end GuestVM
