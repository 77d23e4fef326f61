import GuestVM.Proofs.Bridge.Bridging
import GuestVM.Proofs.Machine.Owning

/-! # Environments as procs hold them

An environment belongs to one proc and is unshared.  Once it holds values it stays the environment
of that proc and keeps its size; what may change is what its slots hold, by a write through the
proc.  `Machine.enclosed` says what a read of a slot answers, and so what a write can be seen by. -/
set_option autoImplicit false

namespace GuestVM

namespace Machine

/-- The environments of procs are unshared, and no two procs have the same one. -/
structure PrivateEnvs (m : Machine) : Prop extends m.OwnEnvs where
  unshared : ∀ p e, m.procEnv p = some e → m.envIsShared e = some false

/-- The proc `p` has the environment `e` with `n` values in it. -/
structure Encloses (m : Machine) (p e : ObjId) (n : Nat) : Prop where
  owned : m.procEnv p = some e
  holds : ∃ values isShared, m.env? e = some (values, isShared) ∧ values.size = n

variable {m m' : Machine} {p e : ObjId} {n : Nat}

theorem envIsShared_eq_some {isShared : Bool} :
    m.envIsShared e = some isShared ↔
      ∃ o values, m.object? e = some o ∧ o.body = .env values isShared := by
  constructor
  · intro found
    obtain ⟨⟨values, also⟩, holds, rfl⟩ := Option.map_eq_some_iff.mp found
    obtain ⟨o, present, body⟩ := env?_eq_some.mp holds
    exact ⟨o, values, present, body⟩
  · intro given
    obtain ⟨o, values, present, body⟩ := given
    rw [envIsShared, env?_eq_some.mpr ⟨o, present, body⟩]
    rfl

theorem Encloses.attachedLen (encloses : m.Encloses p e n) : m.attachedLen (.obj p) = n := by
  obtain ⟨values, isShared, holds, size⟩ := encloses.holds
  simp [Machine.attachedLen, Value.asObj, encloses.owned, Machine.envSize, holds, size]

/-- A proc with a length has an environment of that size. -/
theorem encloses_of_attachedLen (some_ : 0 < m.attachedLen (.obj p)) :
    ∃ e, m.Encloses p e (m.attachedLen (.obj p)) := by
  have length : m.attachedLen (.obj p) = ((m.procEnv p).map m.envSize).getD 0 := rfl
  cases owned : m.procEnv p with
  | none => simp [length, owned] at some_
  | some e =>
      cases holds : m.env? e with
      | none => simp [length, owned, envSize, holds] at some_
      | some pair =>
          refine ⟨e, owned, pair.1, pair.2, holds, ?_⟩
          simp [length, owned, envSize, holds]

end Machine

/-! ## Changes -/

/-- What was a proc is one with the same environment, and what was an environment is one of the same
size, as much shared as before. -/
structure Object.KeepsEnv (o o' : Object) : Prop where
  proc : ∀ data, o.body = .proc data → ∃ data', o'.body = .proc data' ∧ data'.env = data.env
  env : ∀ values isShared, o.body = .env values isShared →
    ∃ values', o'.body = .env values' isShared ∧ values'.size = values.size

variable {g : Grant} {m m' : Machine} {p e : ObjId} {n : Nat}

theorem Object.KeepsEnv.refl (o : Object) : o.KeepsEnv o :=
  ⟨fun data body => ⟨data, body, rfl⟩, fun values _ body => ⟨values, body, rfl⟩⟩

theorem Touch.keepsEnv {o o' : Object} (how : Touch g m p o o') (rebinds : g.rebinds = none)
    (edits : g.edits = none) : o.KeepsEnv o' := by
  constructor
  · intro data body
    have free : g.rebinds ≠ some p := by
      rw [rebinds]
      nofun
    obtain ⟨data', after, -, -, env⟩ := how.keeps_proc free edits body
    exact ⟨data', after, env⟩
  · intro values isShared body
    cases how with
    | edit _ may =>
        rw [edits] at may
        cases may
    | write q before after shared was size =>
        cases body.symm.trans was
        exact ⟨after, rfl, size⟩
    | freeze => exact ⟨values, body, rfl⟩
    | ivar => exact ⟨values, body, rfl⟩
    | reclass => exact ⟨values, body, rfl⟩
    | _ => simp_all

theorem Machine.Encloses.of_kept (encloses : m.Encloses p e n)
    (kept : ∀ x o, x = p ∨ x = e → m.object? x = some o →
      ∃ o', m'.object? x = some o' ∧ o.KeepsEnv o') : m'.Encloses p e n := by
  obtain ⟨owned, values, isShared, holds, size⟩ := encloses
  obtain ⟨o, data, present, body, env⟩ := Machine.procEnv_eq_some.mp owned
  obtain ⟨q, there, isEnv⟩ := Machine.env?_eq_some.mp holds
  obtain ⟨o', present', keeps⟩ := kept p o (.inl rfl) present
  obtain ⟨q', there', keeps'⟩ := kept e q (.inr rfl) there
  obtain ⟨data', body', same⟩ := keeps.proc data body
  obtain ⟨values', isEnv', sameSize⟩ := keeps'.env values isShared isEnv
  exact ⟨Machine.procEnv_eq_some.mpr ⟨o', data', present', body', same.trans env⟩, values', isShared,
    Machine.env?_eq_some.mpr ⟨q', there', isEnv'⟩, sameSize.trans size⟩

namespace Change

/-- A proc with values in its environment keeps that environment, and its size, while it lives. -/
theorem encloses (change : Change g m m') (tidy : m.heap.Tidy) (rebinds : g.rebinds = none)
    (edits : g.edits = none) (live : m'.Live p) (filled : 0 < n) (encloses : m.Encloses p e n) :
    m'.Encloses p e n := by
  cases change with
  | alloc o =>
      exact encloses.of_kept fun x o' _ present =>
        ⟨o', Machine.object?_withNew_of_live tidy o present, .refl o'⟩
  | touch id o o' there how =>
      refine encloses.of_kept fun x q _ present => ?_
      by_cases same : x = id
      · subst same
        cases there.symm.trans present
        exact ⟨o', Machine.object?_put_self there, how.keepsEnv rebinds edits⟩
      · exact ⟨q, (Machine.object?_put_of_ne same).trans present, .refl q⟩
  | attach id o data values there body bare =>
      -- The proc that gets the environment is not `p`, which has values in its own.
      have other : p ≠ id := by
        rintro rfl
        rw [encloses.attachedLen] at bare
        omega
      have noEnv : e ≠ id := by
        rintro rfl
        obtain ⟨held, isShared, holds, -⟩ := encloses.holds
        obtain ⟨q, present, isEnv⟩ := Machine.env?_eq_some.mp holds
        cases there.symm.trans present
        cases body.symm.trans isEnv
      refine encloses.of_kept fun x q either present => ⟨q, ?_, .refl q⟩
      have apart : x ≠ id := by
        rcases either with rfl | rfl
        · exact other
        · exact noEnv
      exact (Machine.object?_put_of_ne apart).trans
        (Machine.object?_withNew_of_live tidy _ present)
  | collect =>
      obtain ⟨o, survived⟩ := live.object?
      have before : m.object? p = some o := Heap.get?_of_get?_collect survived
      obtain ⟨o', data, present, body, env⟩ := Machine.procEnv_eq_some.mp encloses.owned
      cases before.symm.trans present
      have named : e ∈ o.references := by
        apply Object.mem_references_of_body
        simp [body, Body.references, env]
      refine encloses.of_kept fun x q either there => ⟨q, ?_, .refl q⟩
      rcases either with rfl | rfl
      · exact survived.trans (before.symm.trans there)
      · exact Heap.get?_collect_of_reference tidy survived named there
  | _ => exact encloses.of_kept fun x q _ present => ⟨q, present, .refl q⟩

theorem privateEnvs (change : Change g m m') (tidy : m.heap.Tidy) (rebinds : g.rebinds = none)
    (edits : g.edits = none) (envs : m.PrivateEnvs) : m'.PrivateEnvs := by
  obtain ⟨id, before⟩ := change.procEnv_before tidy rebinds edits
  refine ⟨change.ownEnvs tidy rebinds edits envs.toOwnEnvs, ?_⟩
  intro p e owned
  rcases before p e owned with was | ⟨-, -, values, made⟩
  · obtain ⟨o, values, present, isEnv⟩ := Machine.envIsShared_eq_some.mp (envs.unshared p e was)
    have live := change.live_procEnv tidy owned (.of_object? present)
    rcases change.object?_after tidy present with same | ⟨o', after, how⟩ |
      ⟨data, env, isProc, -⟩ | ⟨-, dead⟩
    · exact Machine.envIsShared_eq_some.mpr ⟨o, values, same, isEnv⟩
    · obtain ⟨values', isEnv', -⟩ := (how.keepsEnv rebinds edits).env values false isEnv
      exact Machine.envIsShared_eq_some.mpr ⟨o', values', after, isEnv'⟩
    · cases isProc.symm.trans isEnv
    · rw [Machine.Live, dead] at live
      cases live
  · rw [Machine.envIsShared, made]
    rfl

end Change

theorem Evolution.privateEnvs (evolution : Evolution g m m') (tidy : m.heap.Tidy)
    (rebinds : g.rebinds = none) (edits : g.edits = none) (envs : m.PrivateEnvs) :
    m'.PrivateEnvs := by
  induction evolution with
  | refl => exact envs
  | tail before change ih => exact change.privateEnvs (Evolution.tidy before tidy) rebinds edits ih

theorem Evolution.encloses (evolution : Evolution g m m') (tidy : m.heap.Tidy)
    (rebinds : g.rebinds = none) (edits : g.edits = none) (quiet : g.sweeps = false)
    (filled : 0 < n) (encloses : m.Encloses p e n) : m'.Encloses p e n := by
  induction evolution with
  | refl => exact encloses
  | tail before change ih =>
      have middle := Evolution.tidy before tidy
      obtain ⟨o, data, present, -⟩ := Machine.procEnv_eq_some.mp ih.owned
      rcases change.live middle (.of_object? present) with live | sweeping
      · exact change.encloses middle rebinds edits live filled ih
      · rw [quiet] at sweeping
        cases sweeping

end GuestVM
