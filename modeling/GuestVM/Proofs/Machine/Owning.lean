import GuestVM.Proofs.Machine.Binding

/-! # Procs and the environments they own

Unless a proc is given an environment from outside the rules, every environment belongs to one proc:
it is made for that proc and attached to no other.  So a write through one proc leaves the
environments of all others alone. -/
set_option autoImplicit false

namespace GuestVM

namespace Machine

/-- The environments of procs are alive, and no two procs share one. -/
structure OwnEnvs (m : Machine) : Prop where
  alive : ∀ p e, m.procEnv p = some e → m.Live e
  apart : ∀ p q e, m.procEnv p = some e → m.procEnv q = some e → p = q

variable {m : Machine}

theorem procEnv_eq_some {p e : ObjId} :
    m.procEnv p = some e ↔
      ∃ o data, m.object? p = some o ∧ o.body = .proc data ∧ data.env = some e := by
  constructor
  · intro owned
    obtain ⟨data, found, env⟩ := Option.bind_eq_some_iff.mp owned
    obtain ⟨o, present, isProc⟩ := procData?_eq_some.mp found
    exact ⟨o, data, present, isProc, env⟩
  · intro owned
    obtain ⟨o, data, present, isProc, env⟩ := owned
    have found := procData?_eq_some.mpr ⟨o, present, isProc⟩
    rw [procEnv, found, Option.bind_some, env]

theorem procEnv_of_object? {m' : Machine} {p e : ObjId} (same : m'.object? p = m.object? p)
    (owned : m'.procEnv p = some e) : m.procEnv p = some e := by
  rw [procEnv_eq_some] at owned ⊢
  rwa [same] at owned

/-- A new object owns no environment yet. -/
theorem procEnv_of_withNew {o : Object} {p e : ObjId} (tidy : m.heap.Tidy)
    (bare : ∀ data, o.body = .proc data → data.env = none)
    (owned : (m.withNew o).procEnv p = some e) : m.procEnv p = some e := by
  obtain ⟨o', data, present, isProc, env⟩ := procEnv_eq_some.mp owned
  rw [object?_withNew tidy] at present
  split at present
  · cases present
    rw [bare data isProc] at env
    cases env
  · exact procEnv_eq_some.mpr ⟨o', data, present, isProc, env⟩

section Attaching

variable {id p e : ObjId} {o : Object} {data : ProcData} {values : Array Value}

/-- The proc that a new environment is attached to owns that one, and others own what they owned. -/
theorem procEnv_of_attached (tidy : m.heap.Tidy) (live : m.object? id = some o)
    (owned : ((m.withNew (.env values)).put id
      { o with body := .proc (data.attached (m.newId (.env values))) }).procEnv p = some e) :
    m.procEnv p = some e ∨ p = id ∧ e = m.newId (.env values) := by
  by_cases same : p = id
  · subst same
    have still : (m.withNew (.env values)).object? p = some o := Heap.get?_alloc_of_live tidy _ live
    obtain ⟨after, data', present, isProc, env⟩ := procEnv_eq_some.mp owned
    rw [object?_put_self still] at present
    cases present
    cases isProc
    cases env
    exact .inr ⟨rfl, rfl⟩
  · have before := procEnv_of_object? (object?_put_of_ne same) owned
    refine .inl (procEnv_of_withNew tidy ?_ before)
    intro data' isProc
    cases isProc

theorem env?_attached (tidy : m.heap.Tidy) (live : m.object? id = some o) :
    ((m.withNew (.env values)).put id
      { o with body := .proc (data.attached (m.newId (.env values))) }).env?
        (m.newId (.env values)) = some (values, false) := by
  have apart : m.newId (.env values) ≠ id := (ne_newId tidy _ (.of_object? live)).symm
  refine env?_eq_some.mpr ⟨.env values, ?_, rfl⟩
  rw [object?_put_of_ne apart, object?_withNew tidy, if_pos rfl]

end Attaching

end Machine

variable {g : Grant} {m m' : Machine}

/-- What is a proc after a touch was one before, with the same environment. -/
theorem Touch.env_before {id : ObjId} {o o' : Object} {data' : ProcData}
    (how : Touch g m id o o') (rebinds : g.rebinds = none) (edits : g.edits = none)
    (body : o'.body = .proc data') : ∃ data, o.body = .proc data ∧ data.env = data'.env := by
  cases how with
  | freeze => exact ⟨data', body, rfl⟩
  | ivar => exact ⟨data', body, rfl⟩
  | reclass => exact ⟨data', body, rfl⟩
  | install data c noArg was =>
      cases body
      refine ⟨data, was, ?_⟩
      unfold Act.ProcData.installed
      cases noArg <;> cases data.target <;> rfl
  | rebind _ _ _ may =>
      rw [rebinds] at may
      cases may
  | edit _ may =>
      rw [edits] at may
      cases may
  | _ => cases body

namespace Change

/-- At most one proc gets an environment by a change, and that is a new one. -/
theorem procEnv_before (change : Change g m m') (tidy : m.heap.Tidy) (rebinds : g.rebinds = none)
    (edits : g.edits = none) :
    ∃ id, ∀ p e, m'.procEnv p = some e →
      m.procEnv p = some e ∨
        (p = id ∧ ¬ m.Live e ∧ ∃ values, m'.env? e = some (values, false)) := by
  cases change with
  | alloc o born =>
      refine ⟨⟨0⟩, fun p e owned => .inl (Machine.procEnv_of_withNew tidy ?_ owned)⟩
      intro data isProc
      have bare := born.2.2
      rw [isProc] at bare
      exact bare.1
  | touch id o o' live how =>
      refine ⟨⟨0⟩, ?_⟩
      intro p e owned
      obtain ⟨after, data', present, isProc, env⟩ := Machine.procEnv_eq_some.mp owned
      by_cases same : p = id
      · subst same
        rw [Machine.object?_put_self live] at present
        cases present
        obtain ⟨data, was, kept⟩ := how.env_before rebinds edits isProc
        exact .inl (Machine.procEnv_eq_some.mpr ⟨o, data, live, was, kept.trans env⟩)
      · exact .inl (Machine.procEnv_of_object? (Machine.object?_put_of_ne same) owned)
  | attach id o p values live body =>
      refine ⟨id, fun q e owned => ?_⟩
      rcases Machine.procEnv_of_attached tidy live owned with before | ⟨rfl, rfl⟩
      · exact .inl before
      · have dead : ¬ m.Live (m.newId (.env values)) := by
          rw [Machine.Live, Machine.newId_dead tidy]
          exact Bool.false_ne_true
        exact .inr ⟨rfl, dead, values, Machine.env?_attached tidy live⟩
  | collect =>
      refine ⟨⟨0⟩, ?_⟩
      intro p e owned
      obtain ⟨o, data, present, facts⟩ := Machine.procEnv_eq_some.mp owned
      have before : m.object? p = some o := Heap.get?_of_get?_collect present
      exact .inl (Machine.procEnv_eq_some.mpr ⟨o, data, before, facts⟩)
  | _ => exact ⟨⟨0⟩, fun _ _ owned => .inl owned⟩

theorem live_procEnv (change : Change g m m') (tidy : m.heap.Tidy) {p e : ObjId}
    (owned : m'.procEnv p = some e) (live : m.Live e) : m'.Live e := by
  obtain ⟨o, data, present, isProc, env⟩ := Machine.procEnv_eq_some.mp owned
  refine change.live_of_named tidy present (Object.mem_references_of_body ?_) live
  simp [isProc, Body.references, env]

theorem ownEnvs (change : Change g m m') (tidy : m.heap.Tidy) (rebinds : g.rebinds = none)
    (edits : g.edits = none) (own : m.OwnEnvs) : m'.OwnEnvs := by
  obtain ⟨id, before⟩ := change.procEnv_before tidy rebinds edits
  constructor
  · intro p e owned
    rcases before p e owned with was | ⟨-, -, values, made⟩
    · exact change.live_procEnv tidy owned (own.alive p e was)
    · obtain ⟨o, present, -⟩ := Machine.env?_eq_some.mp made
      exact .of_object? present
  · intro p q e first second
    rcases before p e first with was | ⟨here, dead, -⟩
    · rcases before q e second with was' | ⟨-, dead, -⟩
      · exact own.apart p q e was was'
      · exact (dead (own.alive p e was)).elim
    · rcases before q e second with was | ⟨there, -, -⟩
      · exact (dead (own.alive q e was)).elim
      · exact here.trans there.symm

end Change

theorem Evolution.ownEnvs (evolution : Evolution g m m') (tidy : m.heap.Tidy)
    (rebinds : g.rebinds = none) (edits : g.edits = none) (own : m.OwnEnvs) : m'.OwnEnvs := by
  induction evolution with
  | refl => exact own
  | tail before change ih => exact change.ownEnvs (Evolution.tidy before tidy) rebinds edits ih

end GuestVM
