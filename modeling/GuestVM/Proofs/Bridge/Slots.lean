import GuestVM.Proofs.Bridge.Handles
import GuestVM.Proofs.Bridge.Lasting
import GuestVM.Proofs.Machine.Enclosing

/-! # Slots of environments

What the operations on the environment of a proc come to.  `Machine.slot` says which slot an index
means to a proc, or why there is none; reading and writing both begin by that.  A write is seen by
reads of the same slot of the same proc only (`Machine.enclosed_writing_of_ne`), and an environment
with values in it is not replaced (`Act.run_attachEnv_taken`). -/
set_option autoImplicit false

namespace GuestVM

/-- The class and message of an error. -/
structure Complaint where
  kind : Builtin
  message : String

namespace Machine

/-- The environment of a proc and the place in it that an index means, or why there is none. -/
def slot (m : Machine) (proc : Value) (index : Int64) : Except Complaint (ObjId × Nat) :=
  match proc with
  | .obj id =>
    if m.procIsNative id then
      match m.procEnv id with
      | some env =>
        if index < 0 ∨ (m.envSize env : Int) ≤ index.toInt then
          .error ⟨.indexError, "Env index out of range: " ++ toString index.toInt
            ++ " (expected: 0 <= index < " ++ toString (m.envSize env) ++ ")"⟩
        else .ok (env, index.toInt.toNat)
      | none => .error ⟨.typeError, "Can't get cfunc env from cfunc Proc without REnv."⟩
    else .error ⟨.typeError, "Can't get cfunc env from non-cfunc proc."⟩
  | _ => .error ⟨.typeError, "Can't get cfunc env from non-cfunc proc."⟩

def inSlot (m : Machine) (s : ObjId × Nat) : Value :=
  ((m.env? s.1).bind fun e => e.1[s.2]?).getD .nil

/-- What a read of a slot answers. -/
def enclosed (m : Machine) (proc : Value) (index : Int64) : Except Complaint Value :=
  (m.slot proc index).map m.inSlot

/-- The machine after a write to a place of an environment. -/
def writing (m : Machine) (s : ObjId × Nat) (v : Value) : Machine :=
  { m with heap := m.heap.modify s.1 fun o =>
      match o.body with
      | .env values isShared => { o with body := .env (values.setIfInBounds s.2 v) isShared }
      | _ => o }

variable {m m' : Machine} {proc : Value} {p q e : ObjId} {index : Int64} {place : Nat}

theorem typeOf_of_native (native : m.procIsNative p = true) : m.typeOf (.obj p) = .proc := by
  obtain ⟨data, found, -⟩ := (Option.any_eq_true _ _).mp native
  obtain ⟨o, present, body⟩ := procData?_eq_some.mp found
  rw [typeOf_obj present, Object.tag, body]

theorem slot_eq_ok :
    m.slot proc index = .ok (e, place) ↔
      ∃ p, proc = .obj p ∧ m.procIsNative p = true ∧ m.procEnv p = some e ∧ 0 ≤ index.toInt ∧
        index.toInt < m.envSize e ∧ index.toInt.toNat = place := by
  have negative : ∀ i : Int64, i < 0 ↔ i.toInt < 0 := fun i => Int64.lt_iff_toInt_lt
  constructor
  · intro found
    cases proc with
    | obj p =>
        simp only [slot] at found
        split at found
        case isTrue native =>
            split at found
            case h_1 env owned =>
                split at found
                · cases found
                case isFalse inside =>
                    cases found
                    rw [negative] at inside
                    exact ⟨p, rfl, native, owned, by omega, by omega, rfl⟩
            case h_2 => cases found
        · cases found
    | _ => cases found
  · rintro ⟨p, rfl, native, owned, above, below, rfl⟩
    have inside : ¬ (index < 0 ∨ (m.envSize e : Int) ≤ index.toInt) := by
      rw [negative]
      omega
    simp only [slot, if_pos native, owned, if_neg inside]

/-- A slot is read exactly where a live native proc has an environment with that many values. -/
theorem enclosed_ok_iff :
    (∃ v, m.enclosed proc index = .ok v) ↔
      ∃ p, proc = .obj p ∧ m.Live p ∧ m.procIsNative p = true ∧ (m.procEnv p).isSome ∧
        0 ≤ index.toInt ∧ index.toInt < m.attachedLen proc := by
  have size : ∀ {p e}, m.procEnv p = some e → m.attachedLen (.obj p) = m.envSize e := by
    intro p e owned
    simp [attachedLen, Value.asObj, owned]
  constructor
  · rintro ⟨v, read⟩
    cases found : m.slot proc index with
    | error c =>
        rw [enclosed, found] at read
        cases read
    | ok s =>
        obtain ⟨p, rfl, native, owned, above, below, -⟩ := slot_eq_ok.mp found
        obtain ⟨o, data, present, -⟩ := procEnv_eq_some.mp owned
        refine ⟨p, rfl, .of_object? present, native, ?_, above, ?_⟩
        · rw [owned]
          rfl
        · rwa [size owned]
  · rintro ⟨p, rfl, -, native, has, above, below⟩
    obtain ⟨e, owned⟩ := Option.isSome_iff_exists.mp has
    rw [size owned] at below
    rw [enclosed, slot_eq_ok.mpr ⟨p, rfl, native, owned, above, below, rfl⟩]
    exact ⟨_, rfl⟩

/-! ## Writing -/

theorem object?_writing (s : ObjId × Nat) (v : Value) (x : ObjId) :
    (m.writing s v).object? x = if x = s.1 then (m.object? x).map fun o =>
      match o.body with
      | .env values isShared => { o with body := .env (values.setIfInBounds s.2 v) isShared }
      | _ => o else m.object? x :=
  object?_modify m s.1 _ x

theorem procData?_writing (s : ObjId × Nat) (v : Value) (x : ObjId) :
    (m.writing s v).procData? x = m.procData? x := by
  by_cases same : x = s.1
  · rw [procData?, object?_writing, if_pos same, procData?]
    cases m.object? x with
    | none => rfl
    | some o =>
        obtain ⟨cls, frozen, ivars, body⟩ := o
        cases body <;> rfl
  · rw [procData?, object?_writing, if_neg same, procData?]

theorem env?_writing (s : ObjId × Nat) (v : Value) (x : ObjId) :
    (m.writing s v).env? x = (m.env? x).map fun env =>
      if x = s.1 then (env.1.setIfInBounds s.2 v, env.2) else env := by
  by_cases same : x = s.1
  · simp only [env?, object?_writing, if_pos same]
    cases m.object? x with
    | none => rfl
    | some o =>
        obtain ⟨cls, frozen, ivars, body⟩ := o
        cases body <;> rfl
  · simp [env?, object?_writing, if_neg same]

theorem envSize_writing (s : ObjId × Nat) (v : Value) (x : ObjId) :
    (m.writing s v).envSize x = m.envSize x := by
  rw [envSize, env?_writing, envSize]
  cases m.env? x with
  | none => rfl
  | some env =>
      by_cases same : x = s.1 <;> simp [same]

/-- A write moves no slot. -/
theorem slot_writing (s : ObjId × Nat) (v : Value) (proc : Value) (index : Int64) :
    (m.writing s v).slot proc index = m.slot proc index := by
  cases proc with
  | obj id =>
      have native : (m.writing s v).procIsNative id = m.procIsNative id := by
        rw [procIsNative, procData?_writing, procIsNative]
      have owned : (m.writing s v).procEnv id = m.procEnv id := by
        rw [procEnv, procData?_writing, procEnv]
      rw [slot, native, owned, slot]
      cases m.procEnv id with
      | none => rfl
      | some env => simp only [envSize_writing]
  | _ => rfl

/-- A write is seen where it was made. -/
theorem enclosed_writing_self {s : ObjId × Nat} (v : Value) (found : m.slot proc index = .ok s) :
    (m.writing s v).enclosed proc index = .ok v := by
  obtain ⟨p, -, -, -, above, below, placed⟩ := slot_eq_ok.mp found
  rw [enclosed, slot_writing, found]
  cases holds : m.env? s.1 with
  | none =>
      simp only [envSize, holds, Option.map_none, Option.getD_none] at below
      omega
  | some env =>
      have inside : s.2 < env.1.size := by
        simp only [envSize, holds, Option.map_some, Option.getD_some] at below
        omega
      simp [Except.map, inSlot, env?_writing, holds, inside]

/-- A write through one proc is seen nowhere else. -/
theorem enclosed_writing_of_ne {s : ObjId × Nat} (v : Value) {other : Value} {j : Int64}
    (own : m.OwnEnvs) (found : m.slot proc index = .ok s) (apart : other ≠ proc ∨ j ≠ index) :
    (m.writing s v).enclosed other j = m.enclosed other j := by
  rw [enclosed, slot_writing, enclosed]
  cases there : m.slot other j with
  | error c => rfl
  | ok s' =>
      obtain ⟨p, rfl, -, owned, above, -, placed⟩ := slot_eq_ok.mp found
      obtain ⟨q, rfl, -, owned', above', -, placed'⟩ := slot_eq_ok.mp there
      refine congrArg Except.ok ?_
      rw [inSlot, env?_writing, inSlot]
      by_cases same : s'.1 = s.1
      · -- The environment is the same, so the proc is, and the places differ.
        have sameProc : q = p := own.apart q p s.1 (same ▸ owned') owned
        have apart : j ≠ index := by
          rcases apart with other | other
          · exact absurd (congrArg Value.obj sameProc) other
          · exact other
        have places : s.2 ≠ s'.2 := fun equal => apart (Int64.toInt_inj.mp (by omega))
        cases m.env? s'.1 with
        | none => rfl
        | some env => simp [same, places]
      · cases m.env? s'.1 with
        | none => rfl
        | some env => simp [same]

end Machine

/-! ## The operations -/

namespace Act

variable {α : Type} {m : Machine} {proc : Value} {index : Int64}

theorem run_envOwner {p : ObjId} (isProc : m.typeOf (.obj p) = .proc) :
    (envOwner (.obj p)).run.run m = (.ok p, m) := by
  unfold envOwner
  rw [run_get_bind]
  simp only [if_pos isProc]
  rfl

theorem run_envOwner_other (other : m.typeOf proc ≠ .proc) :
    (envOwner proc).run.run m =
      (fail .typeError "Can't get cfunc env from non-cfunc proc." : Act ObjId).run.run m := by
  unfold envOwner
  rw [run_get_bind]
  cases proc with
  | obj id => simp only [if_neg other]
  | _ => rfl

theorem run_ownedEnv {p : ObjId} (native : m.procIsNative p = true) :
    (ownedEnv p).run.run m = (match m.procEnv p with
      | some env => pure env
      | none => fail .typeError "Can't get cfunc env from cfunc Proc without REnv." :
        Act ObjId).run.run m := by
  unfold ownedEnv
  rw [run_get_bind]
  cases m.procEnv p <;> simp [native]

theorem run_ownedEnv_other {p : ObjId} (other : ¬ m.procIsNative p = true) :
    (ownedEnv p).run.run m =
      (fail .typeError "Can't get cfunc env from non-cfunc proc." : Act ObjId).run.run m := by
  unfold ownedEnv
  rw [run_get_bind]
  simp only [other, Bool.not_false, if_true]
  rw [run_fail_bind]

theorem run_failed_bind {a : Act α} {β : Type} {b : Builtin} {message : String}
    (ran : a.run.run m = (fail b message : Act α).run.run m) (rest : α → Act β) :
    (a >>= rest).run.run m = (fail b message : Act β).run.run m := by
  rw [run_bind, ran, ← run_bind, run_fail_bind]

/-- Reading and writing begin by finding the slot. -/
theorem run_inSlot (rest : ObjId → Nat → Act α) :
    (do
      let id ← envOwner proc
      let env ← ownedEnv id
      let position ← envPosition env index
      rest env position : Act α).run.run m =
      match m.slot proc index with
      | .ok s => (rest s.1 s.2).run.run m
      | .error c => (fail c.kind c.message : Act α).run.run m := by
  by_cases isProc : m.typeOf proc = .proc
  · obtain ⟨p, o, rfl, -⟩ : ∃ p o, proc = .obj p ∧ m.object? p = some o := by
      cases proc with
      | obj p =>
          obtain ⟨o, present⟩ := Machine.live_of_typeOf isProc (by decide)
          exact ⟨p, o, rfl, present⟩
      | bool b => cases b <;> cases isProc
      | _ => cases isProc
    rw [run_ok_bind (run_envOwner isProc), Machine.slot]
    by_cases native : m.procIsNative p = true
    · have owns := run_ownedEnv native
      simp only [if_pos native]
      cases owned : m.procEnv p with
      | none =>
          rw [owned] at owns
          exact run_failed_bind owns _
      | some env =>
          rw [owned] at owns
          rw [run_ok_bind owns]
          unfold envPosition
          simp only [bind_assoc]
          rw [run_get_bind]
          by_cases outside : index < 0 ∨ (m.envSize env : Int) ≤ index.toInt
          · simp only [if_pos outside]
            exact run_failed_bind (run_fail_bind _ _ _) _
          · simp only [if_neg outside]
            rfl
    · simp only [if_neg native]
      exact run_failed_bind (run_ownedEnv_other native) _
  · rw [run_failed_bind (run_envOwner_other isProc)]
    cases proc with
    | obj p =>
        have other : ¬ m.procIsNative p = true := fun native =>
          isProc (Machine.typeOf_of_native native)
        simp only [Machine.slot, if_neg other]
    | _ => rfl

theorem run_envGet (proc : Value) (index : Int64) :
    (envGet proc index).run.run m =
      match m.enclosed proc index with
      | .ok v => (.ok v, m)
      | .error c => (fail c.kind c.message : Act Value).run.run m := by
  refine (run_inSlot fun env position => do
    return (((← get).env? env).bind fun e => e.1[position]?).getD .nil).trans ?_
  rw [Machine.enclosed]
  cases m.slot proc index <;> rfl

theorem run_envSet (proc : Value) (index : Int64) (v : Value) :
    (envSet proc index v).run.run m =
      match m.slot proc index with
      | .ok s => (.ok (), m.writing s v)
      | .error c => (fail c.kind c.message : Act Unit).run.run m := by
  refine (run_inSlot fun env position => onHeap fun h => h.modify env fun o =>
    match o.body with
    | .env values isShared => { o with body := .env (values.setIfInBounds position v) isShared }
    | _ => o).trans ?_
  cases m.slot proc index <;> rfl

/-- What attaching values to a proc comes to. -/
theorem run_attachEnv {p : ObjId} {values : List Value} (isProc : m.typeOf (.obj p) = .proc)
    (given : values ≠ []) :
    (attachEnv (.obj p) values).run.run m =
      (if 0 < m.attachedLen (.obj p) then fail .typeError "Expected empty RProc environment."
        else inArenaScope do setEnv p (← envNew values) : Act Unit).run.run m := by
  have passed : (expectProc (.obj p)).run.run m = (.ok p, m) := by
    unfold expectProc
    rw [run_get_bind]
    simp only [Value.asObj, if_pos isProc]
    rfl
  have present : (Value.obj p).isNil = false := rfl
  have some_ : values.isEmpty = false := by simpa using given
  unfold attachEnv
  rw [present, if_neg Bool.false_ne_true, run_ok_bind passed]
  simp only [some_, Bool.false_eq_true, if_false]
  rw [run_get_bind]
  by_cases taken : 0 < m.attachedLen (.obj p)
  · rw [if_pos taken, if_pos taken, run_fail_bind]
  · rw [if_neg taken, if_neg taken]

/-- A proc with values in its environment gets no other. -/
theorem run_attachEnv_taken {p : ObjId} {values : List Value} (given : values ≠ [])
    (taken : 0 < m.attachedLen (.obj p)) :
    (attachEnv (.obj p) values).run.run m =
      (fail .typeError "Expected empty RProc environment." : Act Unit).run.run m := by
  obtain ⟨e, encloses⟩ := Machine.encloses_of_attachedLen taken
  obtain ⟨o, data, present, body, -⟩ := Machine.procEnv_eq_some.mp encloses.owned
  have isProc : m.typeOf (.obj p) = .proc := by rw [Machine.typeOf_obj present, Object.tag, body]
  rw [run_attachEnv isProc given, if_pos taken]

end Act

end GuestVM
