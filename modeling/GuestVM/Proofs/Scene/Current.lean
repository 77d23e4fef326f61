import GuestVM.Proofs.Machine.Descent
import GuestVM.Proofs.Scene

/-! # The current exception

The slot of the current exception is empty or names a live exception object: it is filled only by
raising, what it names is a root, and no lawful step makes an exception object into anything else.  It
is emptied only where the host asks for it and where a protected region ends with an exception. -/
set_option autoImplicit false

namespace GuestVM

namespace Machine

def HasException (m : Machine) (id : ObjId) (message : String) : Prop :=
  ∃ o, m.object? id = some o ∧ o.body = .exception message

/-- The current exception, if there is one, is a live exception object. -/
def Current (m : Machine) : Prop := ∀ id, m.exc = some id → ∃ message, m.HasException id message

variable {m : Machine} {id : ObjId} {message : String}

theorem HasException.live (has : m.HasException id message) : m.Live id := by
  obtain ⟨o, present, -⟩ := has
  exact .of_object? present

theorem HasException.typeOf (has : m.HasException id message) :
    m.typeOf (.obj id) = .exception := by
  obtain ⟨o, present, body⟩ := has
  rw [typeOf_obj present, Object.tag, body]

end Machine

/-! ## Changes -/

theorem Touch.keeps_exception {g : Grant} {m : Machine} {id : ObjId} {o o' : Object}
    {message : String} (how : Touch g m id o o') (body : o.body = .exception message)
    (spared : g.edits ≠ some id) : o'.body = .exception message := by
  cases how with
  | freeze => exact body
  | ivar => exact body
  | reclass => exact body
  | edit e may => exact (spared may).elim
  | items _ _ was => cases body.symm.trans was
  | bytes _ _ was => cases body.symm.trans was
  | table _ _ was => cases body.symm.trans was
  | removal _ _ was => cases body.symm.trans was
  | const _ _ _ was => cases body.symm.trans was
  | method _ _ _ was => cases body.symm.trans was
  | unmethod _ _ was => cases body.symm.trans was
  | install _ _ _ was => cases body.symm.trans was
  | rebind _ _ was => cases body.symm.trans was
  | write _ _ _ _ was => cases body.symm.trans was

namespace Change

variable {g : Grant} {m m' : Machine} {id : ObjId} {message : String}

/-- An exception object stays one, unless it is edited or nothing keeps it from being collected. -/
theorem keeps_exception (change : Change g m m') (tidy : m.heap.Tidy)
    (has : m.HasException id message) (spared : g.edits ≠ some id)
    (kept : m.exc = some id ∨ g.sweeps = false) : m'.HasException id message := by
  obtain ⟨o, present, body⟩ := has
  cases change with
  | alloc p =>
      exact ⟨o, Heap.get?_alloc_of_live tidy p present, body⟩
  | touch x p p' live how =>
      by_cases same : id = x
      · subst same
        cases present.symm.trans live
        exact ⟨p', Machine.object?_put_self live, how.keeps_exception body spared⟩
      · exact ⟨o, (Machine.object?_put_of_ne same).trans present, body⟩
  | attach x p data values live isProc =>
      have apart : id ≠ x := by
        intro same
        subst same
        cases present.symm.trans live
        cases body.symm.trans isProc
      exact ⟨o, (Machine.object?_put_of_ne apart).trans
        (Heap.get?_alloc_of_live tidy _ present), body⟩
  | collect may =>
      rcases kept with current | quiet
      · have root : id ∈ m.roots := Machine.mem_roots.mpr (.inr (.inr (.inr (.inl current))))
        exact ⟨o, Heap.get?_collect_of_root present (.inl root), body⟩
      · rw [quiet] at may
        cases may
  | _ => exact ⟨o, present, body⟩

/-- The slot keeps what it names, or it is filled with an exception or emptied. -/
theorem exc_cases (change : Change g m m') :
    m'.exc = m.exc ∨ (∃ id message, m'.exc = some id ∧ m'.HasException id message) ∨
      (m'.exc = none ∧ g.clears = true) := by
  cases change with
  | raise id o message live body => exact .inr (.inl ⟨id, message, rfl, o, live, body⟩)
  | clear may => exact .inr (.inr ⟨rfl, may⟩)
  | _ => exact .inl rfl

theorem current (change : Change g m m') (tidy : m.heap.Tidy) (spared : g.edits = none)
    (current : m.Current) : m'.Current := by
  intro id filled
  rcases change.exc_cases with same | ⟨x, message, raised, has⟩ | ⟨cleared, -⟩
  · have before := same.symm.trans filled
    obtain ⟨message, has⟩ := current id before
    exact ⟨message, change.keeps_exception tidy has (by simp [spared]) (.inl before)⟩
  · cases raised.symm.trans filled
    exact ⟨message, has⟩
  · cases cleared.symm.trans filled

end Change

namespace Evolution

variable {g : Grant} {m m' : Machine} {id : ObjId} {message : String}

theorem current (evolution : Evolution g m m') (tidy : m.heap.Tidy) (spared : g.edits = none)
    (current : m.Current) : m'.Current := by
  induction evolution with
  | refl => exact current
  | tail before change ih => exact change.current (Evolution.tidy before tidy) spared ih

theorem keeps_exception (evolution : Evolution g m m') (tidy : m.heap.Tidy)
    (has : m.HasException id message) (spared : g.edits ≠ some id) (quiet : g.sweeps = false) :
    m'.HasException id message := by
  induction evolution with
  | refl => exact has
  | tail before change ih =>
      exact change.keeps_exception (Evolution.tidy before tidy) ih spared (.inr quiet)

/-- Only code that may clear the slot leaves it empty when it was not. -/
theorem cleared (evolution : Evolution g m m') (emptied : m'.exc = none) :
    m.exc = none ∨ g.clears = true := by
  induction evolution with
  | refl => exact .inl emptied
  | tail before change ih =>
      rcases change.exc_cases with same | ⟨x, message, raised, -⟩ | ⟨-, may⟩
      · exact ih (same.symm.trans emptied)
      · cases raised.symm.trans emptied
      · exact .inr may

end Evolution

/-! ## Steps -/

namespace Scene

variable {a b : Scene} {id : ObjId} {message : String}

/-- Of all requests only one collects. -/
theorem guest_of_sweeps {ans : Answer} (r : GuestRequest ans) (next : ans.Carrier → Script)
    (sweeps : r.grant.sweeps = true) :
    ∃ next', Script.guest r next = .guest .collect next' := by
  cases r with
  | collect => exact ⟨next, rfl⟩
  | _ => cases sweeps

theorem script_of_sweeps (sweeps : a.grant.sweeps = true) :
    ∃ next, a.script = .guest .collect next := by
  obtain ⟨script, pending, stage⟩ := a
  cases script with
  | guest r next => exact guest_of_sweeps r next sweeps
  | bridge r next => cases r <;> cases sweeps
  | done o =>
      rcases pending with - | ⟨waiting, rest⟩
      · cases sweeps
      · cases waiting <;> cases o <;> cases sweeps
  | _ => cases sweeps

theorem machine_of_collect {next : Nat → Script} (script : a.script = .guest .collect next)
    (stepped : a.step = some b) :
    b.stage.machine = { a.stage.machine with
      heap := (a.stage.machine.heap.collect a.stage.machine.roots).2 } := by
  obtain ⟨_, pending, stage⟩ := a
  cases script
  cases stepped
  rfl

/-- A step is one collection, or an evolution that collects nothing. -/
theorem step_sort (stepped : a.step = some b) (tidy : a.stage.machine.heap.Tidy) :
    (a.grant.sweeps = false ∧ Evolution a.grant a.stage.machine b.stage.machine) ∨
      b.stage.machine = { a.stage.machine with
        heap := (a.stage.machine.heap.collect a.stage.machine.roots).2 } := by
  cases sweeps : a.grant.sweeps with
  | true =>
      obtain ⟨next, script⟩ := script_of_sweeps sweeps
      exact .inr (machine_of_collect script stepped)
  | false => exact .inl ⟨rfl, (step_evolution stepped tidy).1⟩

/-- The same with the collection as a change. -/
theorem step_kind (stepped : a.step = some b) (tidy : a.stage.machine.heap.Tidy) :
    (a.grant.sweeps = false ∧ Evolution a.grant a.stage.machine b.stage.machine) ∨
      Change { sweeps := true } a.stage.machine b.stage.machine := by
  rcases step_sort stepped tidy with evolved | collected
  · exact .inl evolved
  · exact .inr (collected ▸ .collect rfl rfl)

/-- What is the current exception before a step is the same exception after it. -/
theorem step_keeps_exception (lawful : a.Lawful) (stepped : a.step = some b)
    (tidy : a.stage.machine.heap.Tidy) (filled : a.stage.machine.exc = some id)
    (has : a.stage.machine.HasException id message) : b.stage.machine.HasException id message := by
  rcases step_kind stepped tidy with ⟨quiet, evolution⟩ | collected
  · exact evolution.keeps_exception tidy has (by simp [lawful]) quiet
  · exact collected.keeps_exception tidy has nofun (.inl filled)

theorem step_current (lawful : a.Lawful) (stepped : a.step = some b)
    (tidy : a.stage.machine.heap.Tidy) (current : a.stage.machine.Current) :
    b.stage.machine.Current := (step_evolution stepped tidy).1.current tidy lawful current

/-- The slot is emptied where the host asks for it and where a protected region ends with anything
but a value. -/
def Clears (a : Scene) : Prop :=
  (∃ next, a.script = .guest .clearException next) ∨
    ∃ o depth next rest, a.script = .done o ∧ (∀ v, o ≠ .value v) ∧
      a.pending = .shield depth next :: rest

end Scene

end GuestVM
