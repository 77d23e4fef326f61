import GuestVM.Bridge.Escalation
import GuestVM.Proofs.Machine.Doing
import GuestVM.Proofs.Machine.Lineage

/-! # What raising and checking do

The operations that make exceptions current, and the checks that other operations begin with.  A
check that is passed has changed nothing. -/
set_option autoImplicit false

namespace GuestVM

theorem Object.newborn_exception (c : ObjId) (message : String) :
    ({ cls := c, body := .exception message } : Object).Newborn := ⟨rfl, rfl, trivial⟩

theorem Machine.typeOf_obj {m : Machine} {id : ObjId} {o : Object} (live : m.object? id = some o) :
    m.typeOf (.obj id) = o.tag := by
  simp [Machine.typeOf, live]

theorem Machine.live_of_typeOf {m : Machine} {id : ObjId} {t : ValueType}
    (typed : m.typeOf (.obj id) = t) (proper : t ≠ .undefined) : ∃ o, m.object? id = some o := by
  cases present : m.object? id with
  | none =>
      simp only [Machine.typeOf, present] at typed
      exact absurd typed.symm proper
  | some o => exact ⟨o, rfl⟩

theorem Machine.exception_of_typeOf {m : Machine} {v : Value} (typed : m.typeOf v = .exception) :
    ∃ id o, v = .obj id ∧ m.object? id = some o ∧ o.body = .exception (m.exceptionMessage v) := by
  cases v with
  | obj id =>
      cases present : m.object? id with
      | none => simp [Machine.typeOf, present] at typed
      | some o =>
          rw [Machine.typeOf_obj present] at typed
          refine ⟨id, o, rfl, present, ?_⟩
          cases shape : o.body with
          | exception message =>
              simp [Machine.exceptionMessage, Machine.body?, Value.asObj, present, shape]
          | «class» c => cases kind : c.kind <;> simp [Object.tag, shape, kind] at typed
          | _ => simp [Object.tag, shape] at typed
  | bool b => cases b <;> simp [Machine.typeOf] at typed
  | _ => simp [Machine.typeOf] at typed

/-- The chain of an id that is no class is the id alone. -/
theorem Machine.live_or_eq_of_descends {m : Machine} {c ancestor : ObjId}
    (descends : m.descendsFrom? c ancestor = some true) : m.Live c ∨ c = ancestor := by
  cases found : m.classData? c with
  | some data => exact .inl (Machine.live_of_classData? found)
  | none =>
      have alone : m.lineage c = [c] := by
        simp [Machine.lineage, Machine.chain, Machine.superclass?, found]
      have listed : ancestor ∈ m.lineage c := by
        simpa [Machine.descendsFrom_eq] using Machine.descendsFrom?_eq_some descends
      have same : ancestor = c := by simpa [alone] using listed
      exact .inr same.symm

namespace Act

variable {α β : Type} {g : Grant} {m : Machine}

/-! ## Raising -/

theorem does_exceptionNew {c : ObjId} (message : String) (known : m.Known g c) :
    Does g (exceptionNew c message) m fun v m' =>
      v = .obj (m.newId { cls := c, body := .exception message }) ∧
        m' = m.withNew { cls := c, body := .exception message } := by
  refine (does_alloc (Object.newborn_exception c message) ?_ (by nofun)).bind ?_
  · simpa [Object.references, Body.references, SymMap.values, Value.objects] using known
  · intro id m' _ _ done
    obtain ⟨rfl, rfl⟩ := done
    exact .pure ⟨rfl, rfl⟩

theorem exception_new {m : Machine} (tidy : m.heap.Tidy) (c : ObjId) (message : String) :
    let o : Object := { cls := c, body := .exception message }
    (m.withNew o).typeOf (.obj (m.newId o)) = .exception := by
  intro o
  have live : (m.withNew o).object? (m.newId o) = some o := by
    rw [Machine.object?_withNew tidy, if_pos rfl]
  rw [Machine.typeOf_obj live]
  rfl

/-- The second half of raising: the value is an exception by now and becomes the current one, and
what is said of it is read off the machine. -/
def announce (v : Value) : Act Raised := do
  modify fun m => { m with exc := v.asObj }
  let m ← get
  let name ← ofOption (m.realClassName v)
  return { value := v, className := name, message := m.exceptionMessage v }

theorem run_exceptionRaise_of_exception {v : Value} (typed : m.typeOf v = .exception) :
    (exceptionRaise v).run.run m = (announce v).run.run m := by
  unfold exceptionRaise
  rw [run_get_bind, if_pos typed, pure_bind]
  rfl

theorem run_exceptionRaise_of_other {v : Value} (other : m.typeOf v ≠ .exception) :
    (exceptionRaise v).run.run m =
      (exceptionNew Builtin.typeError.id "exception class/object expected" >>= announce).run.run
        m := by
  unfold exceptionRaise
  rw [run_get_bind, if_neg other]
  rfl

theorem run_announce (v : Value) :
    (announce v).run.run m = (do
      let name ← ofOption (({ m with exc := v.asObj } : Machine).realClassName v)
      return { value := v, className := name, message := m.exceptionMessage v } :
        Act Raised).run.run { m with exc := v.asObj } := rfl

theorem does_announce {v : Value} (typed : m.typeOf v = .exception) :
    Does g (announce v) m fun e m' =>
      m'.Carries e ∧ m' = { m with exc := v.asObj } ∧ e.value = v ∧
        m'.realClassName v = some e.className ∧ e.message = m.exceptionMessage v := by
  obtain ⟨id, o, rfl, live, body⟩ := Machine.exception_of_typeOf typed
  apply (does_modify _ (.single (.raise id o _ live body))).bind
  intro _ _ _ _ same
  subst same
  refine .get_bind ((does_ofOption _).bind ?_)
  intro name _ _ _ done
  obtain ⟨named, rfl⟩ := done
  exact .pure ⟨⟨id, o, rfl, rfl, live, body⟩, rfl, rfl, named, rfl⟩

theorem does_exceptionRaise_of_exception {v : Value} (typed : m.typeOf v = .exception) :
    Does g (exceptionRaise v) m fun e m' =>
      m'.Carries e ∧ m' = { m with exc := v.asObj } ∧ e.value = v ∧
        m'.realClassName v = some e.className ∧ e.message = m.exceptionMessage v :=
  (does_announce typed).of_run_eq (run_exceptionRaise_of_exception typed)

theorem does_exceptionRaise (v : Value) :
    Does g (exceptionRaise v) m fun e m' => m'.Carries e := by
  by_cases typed : m.typeOf v = .exception
  · exact (does_exceptionRaise_of_exception typed).mono fun _ _ _ _ raised => raised.1
  · refine Does.of_run_eq (.of_tidy fun tidy => ?_) (run_exceptionRaise_of_other typed)
    refine (does_exceptionNew _ (.builtin .typeError)).bind ?_
    intro _ _ _ _ done
    obtain ⟨rfl, rfl⟩ := done
    exact (does_announce (exception_new tidy _ _)).mono fun _ _ _ _ raised => raised.1

theorem does_raise {c : ObjId} (message : String) (known : m.Known g c) :
    Does g (raise c message) m fun e m' => m'.Carries e := by
  apply (does_exceptionNew message known).bind
  intro v m' _ _ _
  exact does_exceptionRaise v

/-- An action that raises what another makes has no result. -/
theorem does_throwing {make : Act Raised} {post : α → Machine → Prop}
    (does : Does g make m fun e m' => m'.Carries e) : Does g (throwing make) m post := by
  apply does.bind
  intro e m' _ _ carried
  exact .of_raised rfl .refl fun _ => carried

theorem does_throwing_bind {make : Act Raised} {rest : α → Act β} {post : β → Machine → Prop}
    (does : Does g make m fun e m' => m'.Carries e) :
    Does g (throwing make >>= rest) m post :=
  (does_throwing does).bind fun _ _ _ _ none => False.elim none

theorem does_fail (b : Builtin) (message : String) (post : α → Machine → Prop) :
    Does g (fail b message) m post :=
  does_throwing (does_raise message (.builtin b))

theorem does_fail_bind (b : Builtin) (message : String) (rest : α → Act β)
    (post : β → Machine → Prop) : Does g (fail b message >>= rest) m post :=
  does_throwing_bind (does_raise message (.builtin b))

theorem does_clearException (may : g.clears = true) :
    Does g clearException m fun _ m' => m' = { m with exc := none } :=
  does_modify _ (.single (.clear may))

/-! ## Checks -/

theorem does_frozenError (v : Value) : Does g (frozenError v) m fun e m' => m'.Carries e := by
  refine .get_bind ((does_ofOption _).bind ?_)
  intro name _ _ _ _
  exact does_raise _ (.builtin .frozenError)

theorem does_checkFrozen (v : Value) :
    Does g (checkFrozen v) m fun _ m' =>
      m' = m ∧ ∀ id o, v = .obj id → m.object? id = some o → o.frozen = false := by
  unfold checkFrozen
  apply Does.get_bind
  split
  · exact does_throwing (does_frozenError v)
  case isFalse passed =>
      refine .pure ⟨rfl, ?_⟩
      intro id o same live
      subst same
      simpa [Value.asObj, Machine.isFrozen, live] using passed

/-- Refuses values whose type is not accepted.  The checks for a type, for a class and for a proc are
this one, each with its own complaint. -/
def expecting (accepts : ValueType → Prop) [DecidablePred accepts] (complaint : String → String)
    (v : Value) : Act ObjId := do
  let m ← get
  match v.asObj with
  | some id =>
    if accepts (m.typeOf v) then return id
    else fail .typeError (complaint (← describe v))
  | none => fail .typeError (complaint (← describe v))

theorem expectType_eq (v : Value) (t : ValueType) :
    expectType v t = expecting (· = t) (· ++ " cannot be converted to " ++ t.name) v := rfl

theorem expectClass_eq (v : Value) :
    expectClass v = expecting (·.isClassLike = true) (· ++ " is not a class/module") v := rfl

theorem expectProc_eq (v : Value) :
    expectProc v = expecting (· = .proc) (· ++ " is not a Proc") v := rfl

theorem run_expecting {accepts : ValueType → Prop} [DecidablePred accepts] {id : ObjId}
    (typed : accepts (m.typeOf (.obj id))) (complaint : String → String) :
    (expecting accepts complaint (.obj id)).run.run m = (.ok id, m) := by
  unfold expecting
  rw [run_get_bind]
  simp only [Value.asObj, if_pos typed]
  rfl

theorem does_expecting (accepts : ValueType → Prop) [DecidablePred accepts]
    (complaint : String → String) (v : Value) :
    Does g (expecting accepts complaint v) m fun id m' =>
      m' = m ∧ v = .obj id ∧ accepts (m.typeOf v) := by
  apply Does.get_bind
  cases v with
  | obj id =>
      simp only [Value.asObj]
      split
      case isTrue typed => exact .pure ⟨rfl, rfl, typed⟩
      case isFalse => exact (does_describe _).bind fun _ _ _ _ _ => does_fail _ _ _
  | _ => exact (does_describe _).bind fun _ _ _ _ _ => does_fail _ _ _

theorem does_expectType (v : Value) (t : ValueType) :
    Does g (expectType v t) m fun id m' => m' = m ∧ v = .obj id ∧ m.typeOf v = t :=
  expectType_eq v t ▸ does_expecting (· = t) _ v

theorem does_expectClass (v : Value) :
    Does g (expectClass v) m fun id m' =>
      m' = m ∧ v = .obj id ∧ (m.typeOf v).isClassLike = true :=
  expectClass_eq v ▸ does_expecting (·.isClassLike = true) _ v

theorem does_expectProc (v : Value) :
    Does g (expectProc v) m fun id m' => m' = m ∧ v = .obj id ∧ m.typeOf v = .proc :=
  expectProc_eq v ▸ does_expecting (· = .proc) _ v

/-! ## Errors of host code -/

theorem does_hostRaise (c : ObjId) (message : String) :
    Does g (hostRaise c message) m fun v m' => ∃ e, m'.Carries e ∧ v = e.value := by
  refine .get_bind ((does_ofOption _).bind ?_)
  rintro is _ _ _ ⟨climbed, rfl⟩
  refine (does_raise _ ?_).bind ?_
  · cases is with
    | true =>
        rcases Machine.live_or_eq_of_descends climbed with live | rfl
        · exact .alive live
        · exact .builtin .exception
    | false => exact .builtin .exception
  · intro e m' _ _ carried
    exact .pure ⟨e, carried, rfl⟩

theorem does_raiseError (e : HostError) :
    Does g (raiseError e) m fun v m' => ∃ r, m'.Carries r ∧ v = r.value :=
  .get_bind ((does_ofOption _).bind fun _ _ _ _ _ => does_hostRaise _ _)

theorem does_raiseIfLive (v : Value) :
    Does g (raiseIfLive v) m fun x m' =>
      m' = m ∧ x = v ∧ ¬ (m.typeOf v = .exception ∧ m.currentException = some v) := by
  unfold raiseIfLive
  apply Does.get_bind
  split
  · exact does_throwing_bind (does_exceptionRaise v)
  case isFalse other => exact .pure ⟨rfl, rfl, other⟩

end Act

end GuestVM
