import GuestVM.Proofs.Scene.Current

/-! # Frozen classes

The tables of a frozen class, module or singleton class change in one way only: a new class or module
is named in it.  All other ways look at the flag. -/
set_option autoImplicit false

namespace GuestVM

theorem Object.isClassLike_of_body {o : Object} {data : ClassData} (body : o.body = .class data) :
    o.tag.isClassLike = true := by
  rw [Object.tag, body]
  cases kind : data.kind <;> simp only [kind] <;> rfl

theorem Machine.classData?_isSome (m : Machine) (c : ObjId) :
    (m.classData? c).isSome = (m.typeOf (.obj c)).isClassLike := by
  rw [Bool.eq_iff_iff, Option.isSome_iff_exists]
  constructor
  · rintro ⟨data, found⟩
    obtain ⟨o, present, body⟩ := Machine.classData?_eq_some.mp found
    rw [Machine.typeOf_obj present]
    exact Object.isClassLike_of_body body
  · intro isClass
    obtain ⟨o, present, data, body⟩ := Machine.class_of_typeOf isClass
    exact ⟨data, Machine.classData?_eq_some.mpr ⟨o, present, body⟩⟩

/-- The class `c` is frozen and has these methods and constants. -/
def Machine.Sealed (m : Machine) (c : ObjId) (methods : SymMap Method) (consts : SymMap Value) :
    Prop :=
  ∃ o data, m.object? c = some o ∧ o.frozen = true ∧ o.body = .class data ∧
    data.methods = methods ∧ data.consts = consts

section Sealed

variable {m m' : Machine} {c : ObjId} {o : Object} {methods : SymMap Method}
  {consts : SymMap Value}

namespace Machine.Sealed

theorem live (sealed_ : m.Sealed c methods consts) : m.Live c := by
  obtain ⟨o, data, present, -⟩ := sealed_
  exact .of_object? present

theorem isFrozen (sealed_ : m.Sealed c methods consts) : m.isFrozen (.obj c) = true := by
  obtain ⟨o, data, present, frozen, -⟩ := sealed_
  simp [Machine.isFrozen, present, frozen]

theorem isClassLike (sealed_ : m.Sealed c methods consts) :
    (m.typeOf (.obj c)).isClassLike = true := by
  obtain ⟨o, data, present, -, body, -⟩ := sealed_
  rw [Machine.typeOf_obj present]
  exact Object.isClassLike_of_body body

theorem of_object? (sealed_ : m.Sealed c methods consts)
    (same : ∀ o, m.object? c = some o → m'.object? c = some o) : m'.Sealed c methods consts := by
  obtain ⟨o, data, present, rest⟩ := sealed_
  exact ⟨o, data, same o present, rest⟩

end Machine.Sealed

theorem Machine.sealed_of_isFrozen (typed : (m.typeOf (.obj c)).isClassLike = true)
    (frozen : m.isFrozen (.obj c) = true) : ∃ methods consts, m.Sealed c methods consts := by
  obtain ⟨o, present, data, body⟩ := Machine.class_of_typeOf typed
  refine ⟨_, _, o, data, present, ?_, body, rfl, rfl⟩
  simpa [Machine.isFrozen, present] using frozen

end Sealed

/-! ## Changes -/

section Changes

variable {g : Grant} {m m' : Machine} {c : ObjId} {o o' : Object} {data : ClassData}
  {methods : SymMap Method} {consts : SymMap Value}

theorem Touch.keeps_tables (how : Touch g m c o o') (frozen : o.frozen = true)
    (body : o.body = .class data) (unnamed : g.names ≠ some c) (unedited : g.edits ≠ some c) :
    o'.frozen = true ∧ o'.body = .class data := by
  have never : o.frozen = false → o'.frozen = true ∧ o'.body = .class data := by
    intro thawed
    rw [frozen] at thawed
    cases thawed
  cases how with
  | freeze => exact ⟨rfl, body⟩
  | ivar _ _ thawed => exact never thawed
  | reclass s => exact ⟨frozen, body⟩
  | const _ _ _ _ may => exact may.elim never fun named => absurd named unnamed
  | method _ _ _ _ thawed => exact never thawed
  | unmethod _ _ _ thawed => exact never thawed
  | edit e may => exact absurd may unedited
  | items _ _ other => cases body.symm.trans other
  | bytes _ _ other => cases body.symm.trans other
  | table _ _ other => cases body.symm.trans other
  | removal _ _ other => cases body.symm.trans other
  | install _ _ _ other => cases body.symm.trans other
  | rebind _ _ other => cases body.symm.trans other
  | write _ _ _ _ other => cases body.symm.trans other

theorem Change.keeps_sealed (change : Change g m m') (tidy : m.heap.Tidy)
    (quiet : g.sweeps = false) (unnamed : g.names ≠ some c) (unedited : g.edits ≠ some c)
    (sealed_ : m.Sealed c methods consts) : m'.Sealed c methods consts := by
  obtain ⟨o, data, present, frozen, body, tables⟩ := sealed_
  rcases change.object?_after tidy present with same | ⟨o', after, how⟩ | ⟨p, env, other, -⟩ |
    ⟨sweeps, -⟩
  · exact ⟨o, data, same, frozen, body, tables⟩
  · obtain ⟨still, kept⟩ := how.keeps_tables frozen body unnamed unedited
    exact ⟨o', data, after, still, kept, tables⟩
  · cases body.symm.trans other
  · rw [quiet] at sweeps
    cases sweeps

theorem Evolution.keeps_sealed (evolution : Evolution g m m') (tidy : m.heap.Tidy)
    (quiet : g.sweeps = false) (unnamed : g.names ≠ some c) (unedited : g.edits ≠ some c)
    (sealed_ : m.Sealed c methods consts) : m'.Sealed c methods consts := by
  induction evolution with
  | refl => exact sealed_
  | tail earlier change ih =>
      exact change.keeps_sealed (Evolution.tidy earlier tidy) quiet unnamed unedited ih

theorem Scene.step_keeps_sealed {a b : Scene} (stepped : a.step = some b)
    (tidy : a.stage.machine.heap.Tidy) (unnamed : a.grant.names ≠ some c)
    (unedited : a.grant.edits ≠ some c) (live : b.stage.machine.Live c)
    (sealed_ : a.stage.machine.Sealed c methods consts) :
    b.stage.machine.Sealed c methods consts := by
  cases sweeps : a.grant.sweeps with
  | false =>
      exact (step_evolution stepped tidy).1.keeps_sealed tidy sweeps unnamed unedited sealed_
  | true =>
      obtain ⟨next, script⟩ := script_of_sweeps sweeps
      obtain ⟨o, after⟩ := live.object?
      rw [machine_of_collect script stepped] at after ⊢
      refine sealed_.of_object? fun p before => ?_
      have same : a.stage.machine.object? c = some o := Heap.get?_of_get?_collect after
      rw [after, ← same, before]

end Changes

end GuestVM
