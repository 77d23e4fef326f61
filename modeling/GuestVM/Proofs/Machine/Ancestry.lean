import GuestVM.Proofs.Bridge.Surfacing
import GuestVM.Proofs.Machine.Mirroring

/-! # Where exceptions of the host belong

What the host raises is an exception, and its class is an exception class: the chain of the class comes
to `Exception`.  This stays so for as long as it is the current exception, whatever ids are handed over.
The object and the classes on the way are reached from a root, no class ever gets another superclass,
and a singleton class of the object goes below the class that the object had.  So the class of such an
exception can always be named. -/
set_option autoImplicit false

namespace GuestVM

/-! ## Chains that stay -/

namespace Change

variable {g : Grant} {m m' : Machine} {x p c : ObjId} {β : Type} {ask : ObjId → Option β}
  {r : Option β}

theorem shape?_eq (change : Change g m m') (tidy : m.heap.Tidy) (unedited : g.edits = none)
    (before : m.Live x) (after : m'.Live x) : m'.shape? x = m.shape? x := by
  obtain ⟨o, present⟩ := before.object?
  rw [Machine.shape?_of_object? present]
  rcases change.object?_after tidy present with same | ⟨o', still, how⟩ | ⟨p, env, body, still⟩ |
    ⟨-, gone⟩
  · exact Machine.shape?_of_object? same
  · exact (Machine.shape?_of_object? still).trans (how.shape?_eq unedited)
  · rw [Machine.shape?_of_object? still]
    simp [Object.shape?, Object.classData?, body]
  · rw [Machine.Live, gone] at after
    cases after

theorem keeps_superclass (change : Change g m m') (tidy : m.heap.Tidy) (unedited : g.edits = none)
    (above : m.superclass? x = some p) (after : m'.Live x) : m'.superclass? x = some p := by
  obtain ⟨data, isClass, parent⟩ := Machine.superclass?_eq_some.mp above
  have shape : m.shape? x = some (data.kind, some p) :=
    Machine.shape?_eq_some.mpr ⟨data, isClass, rfl, parent⟩
  have before := Machine.live_of_shape? shape
  exact Machine.superclass?_of_shape? ((change.shape?_eq tidy unedited before after).trans shape)

/-- The superclass of a class that stays is not collected. -/
theorem live_superclass (change : Change g m m') (tidy : m.heap.Tidy)
    (after : m'.superclass? x = some p) (live : m.Live p) : m'.Live p := by
  obtain ⟨data, isClass, parent⟩ := Machine.superclass?_eq_some.mp after
  obtain ⟨o, present, body⟩ := Machine.classData?_eq_some.mp isClass
  refine change.live_of_named tidy present ?_ live
  apply Object.mem_references_of_body
  rw [body]
  exact ClassData.mem_references.mpr (.inl parent)

/-- A search that finds something goes the same way after a change, unless the class it begins with
has been collected. -/
theorem keeps_ascent (change : Change g m m') (tidy : m.heap.Tidy) (unedited : g.edits = none)
    (climb : m.Ascent ask c r) (finds : r.isSome) (survives : m.Live c → m'.Live c) :
    m'.Ascent ask c r := by
  induction climb with
  | found here => exact .found here
  | top => cases finds
  | up missing above _ ih =>
      have still := survives (Machine.live_of_superclass? (above ▸ rfl))
      have parent := change.keeps_superclass tidy unedited above still
      exact .up missing parent (ih finds (change.live_superclass tidy parent))

end Change

/-! ## Exceptions below `Exception` -/

namespace Machine

/-- An exception object whose class is an exception class. -/
structure Belongs (m : Machine) (id : ObjId) (message : String) : Prop where
  has : m.HasException id message
  above : m.Ascent (sameAt Builtin.exception.id) (m.classOf (.obj id)) (some ())

variable {m : Machine} {id c : ObjId} {message : String}

theorem Belongs.descends (belongs : m.Belongs id message) :
    m.descendsFrom (m.classOf (.obj id)) Builtin.exception.id = true := by
  rw [descendsFrom, descendsFrom?, belongs.above.climb]
  rfl

/-- Its class has a name. -/
theorem Belongs.realClassName_isSome (belongs : m.Belongs id message)
    (established : m.Established) : (m.realClassName (.obj id)).isSome := by
  have raisable := established.raisable belongs.descends
  exact realClassName_isSome_of_mem raisable.singletons raisable.real

theorem ascent_of_descends (descends : m.descendsFrom c Builtin.exception.id = true) :
    m.Ascent (sameAt Builtin.exception.id) c (some ()) := by
  have climbed := descendsFrom?_of_descends descends
  obtain ⟨r, climbed, found⟩ := Option.map_eq_some_iff.mp climbed
  cases r with
  | none => cases found
  | some u => exact climb_eq_some_iff.mp climbed

/-- What the host raises belongs among the exceptions. -/
theorem belongs_raising (tidy : m.heap.Tidy)
    (descends : m.descendsFrom c Builtin.exception.id = true) :
    (m.raising (.exception c message)).Belongs (m.newId (.exception c message)) message := by
  refine ⟨⟨_, (object?_withNew tidy _ _).trans (if_pos rfl), rfl⟩, ?_⟩
  rw [classOf_raising tidy]
  have parents : ∀ d, (m.raising (.exception c message)).superclass? d = m.superclass? d := by
    intro d
    rw [superclass?, classData?_raising tidy, superclass?]
  exact .transfer (fun _ _ (_ : True) _ => trivial) (fun d _ => parents d) (fun _ _ => rfl) trivial
    (ascent_of_descends descends)

theorem Established.belongs_raising (established : m.Established) (c : ObjId) (message : String) :
    (m.raising (.exception (m.hostClass c) message)).Belongs
      (m.newId (.exception (m.hostClass c) message)) message :=
  Machine.belongs_raising established.tidy (descendsFrom_hostClass c)

theorem Established.belongs_of_hostRaise {m' : Machine} {v : Value} (established : m.Established)
    (ran : (Act.hostRaise c message).run.run m = (.ok v, m')) :
    ∃ id, v = .obj id ∧ m'.exc = some id ∧ m'.Belongs id message := by
  by_cases endless : m.Endless c
  · cases (run_hostRaise_endless endless message).symm.trans ran
  · have raisable := established.raisable (descendsFrom_hostClass c)
    cases (Act.run_hostRaise (isSome_descendsFrom? endless) raisable message rfl).symm.trans ran
    exact ⟨_, rfl, rfl, established.belongs_raising c message⟩

theorem Established.belongs_of_raiseError {m' : Machine} {err : HostError} {v : Value}
    (established : m.Established) (ran : (Act.raiseError err).run.run m = (.ok v, m')) :
    ∃ id message, v = .obj id ∧ m'.exc = some id ∧ m'.Belongs id message := by
  by_cases sticks : err.Sticks m
  · cases (run_raiseError_endless sticks).symm.trans ran
  · cases (established.run_raiseError sticks).symm.trans ran
    exact ⟨_, _, rfl, rfl, established.belongs_raising _ _⟩

end Machine

/-! ## While they are current -/

section Kept

variable {g : Grant} {m m' : Machine} {id : ObjId} {message : String}

/-- The class of an exception: it is what it was, or a new singleton class below that. -/
theorem Touch.exception_class {o o' : Object} (how : Touch g m id o o')
    (unedited : g.edits = none) (body : o.body = .exception message) :
    o'.cls = o.cls ∨ m.superclass? o'.cls = some o.cls := by
  cases how with
  | reclass s own may below => exact .inr (below message body)
  | edit e may =>
      rw [unedited] at may
      cases may
  | _ => exact .inl rfl

theorem Change.exception_class (change : Change g m m') (tidy : m.heap.Tidy)
    (unedited : g.edits = none) {o o' : Object} (body : o.body = .exception message)
    (present : m.object? id = some o) (after : m'.object? id = some o') :
    o'.cls = o.cls ∨ m'.superclass? o'.cls = some o.cls := by
  rcases change.object?_after tidy present with same | ⟨p, still, how⟩ | ⟨p, env, isProc, -⟩ |
    ⟨-, gone⟩
  · cases same.symm.trans after
    exact .inl rfl
  · cases still.symm.trans after
    rcases how.exception_class unedited body with same | below
    · exact .inl same
    · have lives : m.Live o'.cls := Machine.live_of_superclass? (below ▸ rfl)
      exact .inr (change.keeps_superclass tidy unedited below
        (change.live_of_named tidy after (.head _) lives))
  · cases body.symm.trans isProc
  · cases gone.symm.trans after

theorem Change.keeps_belongs (change : Change g m m') (tidy : m.heap.Tidy)
    (unedited : g.edits = none) (kept : m.exc = some id ∨ g.sweeps = false)
    (belongs : m.Belongs id message) : m'.Belongs id message := by
  obtain ⟨has, above⟩ := belongs
  have still := change.keeps_exception tidy has (by simp [unedited]) kept
  refine ⟨still, ?_⟩
  obtain ⟨o, present, body⟩ := has
  obtain ⟨o', after, -⟩ := still
  rw [Machine.classOf_of_object? present] at above
  rw [Machine.classOf_of_object? after]
  rcases change.exception_class tidy unedited body present after with same | below
  · rw [same]
    exact change.keeps_ascent tidy unedited above rfl
      (change.live_of_named tidy after (same ▸ .head _))
  · have onward := change.keeps_ascent tidy unedited above rfl (change.live_superclass tidy below)
    by_cases is : o'.cls = Builtin.exception.id
    · exact .found (if_pos is)
    · exact .up (if_neg is) below onward

theorem Evolution.keeps_belongs (evolution : Evolution g m m') (tidy : m.heap.Tidy)
    (unedited : g.edits = none) (quiet : g.sweeps = false) (belongs : m.Belongs id message) :
    m'.Belongs id message := by
  induction evolution with
  | refl => exact belongs
  | tail before change ih =>
      exact change.keeps_belongs (Evolution.tidy before tidy) unedited (.inr quiet) ih

theorem Scene.step_keeps_belongs {a b : Scene} (lawful : a.Lawful) (stepped : a.step = some b)
    (tidy : a.stage.machine.heap.Tidy) (filled : a.stage.machine.exc = some id)
    (belongs : a.stage.machine.Belongs id message) : b.stage.machine.Belongs id message := by
  rcases step_kind stepped tidy with ⟨quiet, evolution⟩ | collected
  · exact evolution.keeps_belongs tidy lawful quiet belongs
  · exact collected.keeps_belongs tidy rfl (.inl filled) belongs

end Kept

end GuestVM
