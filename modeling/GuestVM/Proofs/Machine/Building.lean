import GuestVM.Proofs.Bridge.Dispatching
import GuestVM.Proofs.Machine.Undisturbed

/-! # Host data on its way in

What host data becomes is built from new objects, and building raises nothing: the one step that
might, the filling of a hash, fills a hash that the same conversion has just made and that nobody
has frozen. -/
set_option autoImplicit false

namespace GuestVM

namespace Machine

/-- A live hash that is not frozen. -/
def Fillable (m : Machine) (h : Value) : Prop :=
  ∃ id o t, h = .obj id ∧ m.object? id = some o ∧ o.frozen = false ∧ o.body = .hash t

/-- What building leaves as it was. -/
structure Built (m m' : Machine) : Prop where
  tidy : m'.heap.Tidy
  steady : m.Steady m'
  exc : m'.exc = m.exc
  fillable : ∀ h, m.Fillable h → m'.Fillable h

namespace Built

variable {m m' m'' : Machine}

theorem refl (tidy : m.heap.Tidy) : m.Built m :=
  ⟨tidy, .refl m, rfl, fun _ fillable => fillable⟩

theorem trans (first : m.Built m') (second : m'.Built m'') : m.Built m'' :=
  ⟨second.tidy, first.steady.trans second.steady, second.exc.trans first.exc,
    fun h fillable => second.fillable h (first.fillable h fillable)⟩

theorem withNew (tidy : m.heap.Tidy) (o : Object) : m.Built (m.withNew o) := by
  refine ⟨Heap.Tidy.alloc tidy o, .withNew o, rfl, ?_⟩
  rintro h ⟨id, p, t, rfl, present, thawed, body⟩
  exact ⟨id, p, t, rfl, Heap.get?_alloc_of_live tidy o present, thawed, body⟩

/-- A change of an object that keeps thawed hashes what they are. -/
theorem modify (tidy : m.heap.Tidy) {id : ObjId} {f : Object → Object}
    (keeps : ∀ o, m.object? id = some o → o.frozen = false → ∀ t, o.body = .hash t →
      (f o).frozen = false ∧ ∃ t', (f o).body = .hash t') :
    m.Built { m with heap := m.heap.modify id f } := by
  refine ⟨Heap.Tidy.modify tidy id f, .modify id f, rfl, ?_⟩
  rintro h ⟨x, o, t, rfl, present, thawed, body⟩
  by_cases same : x = id
  · subst same
    obtain ⟨thawed', t', body'⟩ := keeps o present thawed t body
    exact ⟨x, f o, t', rfl, by rw [object?_modify, if_pos rfl, present]; rfl, thawed', body'⟩
  · exact ⟨x, o, t, rfl, by rw [object?_modify, if_neg same, present], thawed, body⟩

end Built

theorem fillable_new {m : Machine} (tidy : m.heap.Tidy) {o : Object} (thawed : o.frozen = false)
    {t : HashTable} (body : o.body = .hash t) : (m.withNew o).Fillable (.obj (m.newId o)) :=
  ⟨m.newId o, o, t, rfl, by rw [object?_withNew tidy, if_pos rfl], thawed, body⟩

end Machine

namespace Act

variable {α β : Type}

/-- An action that comes to an end and builds. -/
def Builds (a : Act α) : Prop :=
  ∀ m, m.heap.Tidy → ∃ x m', a.run.run m = (.ok x, m') ∧ m.Built m'

namespace Builds

protected theorem pure (x : α) : Builds (pure x) := fun m tidy => ⟨x, m, rfl, .refl tidy⟩

protected theorem bind {a : Act α} {b : α → Act β} (first : Builds a) (rest : ∀ x, Builds (b x)) :
    Builds (a >>= b) := by
  intro m tidy
  obtain ⟨x, middle, ran, built⟩ := first m tidy
  obtain ⟨y, last, ended, also⟩ := rest x middle built.tidy
  refine ⟨y, last, ?_, built.trans also⟩
  rw [run_bind, ran]
  exact ended

theorem alloc (o : Object) : Builds (alloc o) :=
  fun m tidy => ⟨m.newId o, m.withNew o, rfl, .withNew tidy o⟩

theorem stringNew (bytes : List UInt8) : Builds (stringNew bytes) :=
  (alloc _).bind fun _ => .pure _

theorem arrayNew (items : List Value) : Builds (arrayNew items) := (alloc _).bind fun _ => .pure _

end Builds

variable {m : Machine}

theorem run_checkFrozen {id : ObjId} {o : Object} (present : m.object? id = some o)
    (thawed : o.frozen = false) : (checkFrozen (.obj id)).run.run m = (.ok (), m) := by
  unfold checkFrozen
  rw [run_get_bind, if_neg]
  · rfl
  · simp [Machine.isFrozen, present, thawed]

/-- The key that is stored is the key itself or a frozen copy. -/
theorem builds_storedKey (key : Value) : Builds (storedKey key) := by
  intro m tidy
  by_cases copied : m.typeOf key = .string ∧ !m.isFrozen key
  · -- The copy is a string, so no hash is frozen with it.
    refine ⟨_, _, run_storedKey_copied copied, (Machine.Built.withNew tidy (copyOf m key)).trans ?_⟩
    refine .modify (Heap.Tidy.alloc tidy (copyOf m key)) fun p present _ t body => ?_
    rw [Machine.object?_withNew tidy, if_pos rfl] at present
    cases present
    cases body
  · exact ⟨key, m, run_storedKey_asIs copied, .refl tidy⟩

/-- A key that is no string, or a frozen one, is stored as it is. -/
theorem run_hashSet_asIs {id : ObjId} {o : Object} {t : HashTable} {key : Value}
    (present : m.object? id = some o) (thawed : o.frozen = false) (body : o.body = .hash t)
    (asIs : ¬ (m.typeOf key = .string ∧ !m.isFrozen key)) (v : Value) :
    (hashSet (.obj id) key v).run.run m =
      (.ok (), m.withTable id (t.insert (m.hashKey key) key v)) := by
  have typed : m.typeOf (.obj id) = .hash := by
    rw [Machine.typeOf_obj present, Object.tag, body]
  unfold hashSet
  rw [run_ok_bind (run_expectType typed), run_ok_bind (run_checkFrozen present thawed),
    run_bind, run_storedKey_asIs asIs, ← Machine.table_of_hash present body]
  rfl

theorem run_hashSet (tidy : m.heap.Tidy) {h : Value} (fillable : m.Fillable h) (key v : Value) :
    ∃ m', (hashSet h key v).run.run m = (.ok (), m') ∧ m.Built m' := by
  obtain ⟨id, o, t, rfl, present, thawed, body⟩ := fillable
  have typed : m.typeOf (.obj id) = .hash := by
    rw [Machine.typeOf_obj present, Object.tag, body]
  obtain ⟨stored, middle, ran, built⟩ := builds_storedKey key m tidy
  have filled : ∀ after : HashTable, middle.Built { middle with
      heap := middle.heap.modify id fun p => { p with body := .hash after } } := by
    intro after
    exact .modify built.tidy fun p _ soft _ _ => ⟨soft, after, rfl⟩
  refine ⟨_, ?_, built.trans
    (filled ((middle.table (.obj id)).insert (middle.hashKey stored) stored v))⟩
  unfold hashSet
  rw [run_ok_bind (run_expectType typed), run_ok_bind (run_checkFrozen present thawed),
    run_bind, ran]
  rfl

theorem builds_textValue (s : String) : Builds (textValue s) := .stringNew _

mutual

theorem builds_documentValue : ∀ d : Document, Builds (documentValue d)
  | .null => .pure _
  | .bool _ => .pure _
  | .int _ => .pure _
  | .float _ => .pure _
  | .str s => builds_textValue s
  | .arr items => (builds_documentValues items).bind fun _ => .arrayNew _
  | .obj members => by
      intro m tidy
      let o : Object := { cls := Builtin.hash.id, body := .hash .empty }
      have made := Machine.Built.withNew tidy o
      obtain ⟨m', ran, filled⟩ :=
        builds_putMembers members (m.withNew o) (.obj (m.newId o)) made.tidy
          (Machine.fillable_new tidy rfl rfl)
      refine ⟨.obj (m.newId o), m', ?_, made.trans filled⟩
      have new : hashNew.run.run m = (.ok (.obj (m.newId o)), m.withNew o) := rfl
      unfold documentValue
      rw [run_ok_bind new, run_bind, ran]
      rfl

theorem builds_documentValues : ∀ ds : List Document, Builds (documentValues ds)
  | [] => .pure _
  | d :: rest =>
      (builds_documentValue d).bind fun _ => (builds_documentValues rest).bind fun _ => .pure _

theorem builds_putMembers : ∀ (members : List (String × Document)) (m : Machine) (h : Value),
    m.heap.Tidy → m.Fillable h → ∃ m', (putMembers h members).run.run m = (.ok (), m') ∧ m.Built m'
  | [], m, _, tidy, _ => ⟨m, rfl, .refl tidy⟩
  | (name, d) :: rest, m, h, tidy, fillable => by
      obtain ⟨key, m₁, keyed, first⟩ := builds_textValue name m tidy
      obtain ⟨v, m₂, valued, second⟩ := builds_documentValue d m₁ first.tidy
      have still := second.fillable h (first.fillable h fillable)
      obtain ⟨m₃, set, third⟩ := run_hashSet second.tidy still key v
      obtain ⟨m₄, ended, fourth⟩ :=
        builds_putMembers rest m₃ h third.tidy (third.fillable h still)
      refine ⟨m₄, ?_, ((first.trans second).trans third).trans fourth⟩
      have attempted : (attempt (hashSet h key v)).run.run m₂ = (.ok (.ok ()), m₃) := by
        rw [run_attempt, set]
      unfold putMembers
      rw [run_ok_bind keyed, run_ok_bind valued, run_bind, attempted]
      exact ended

end

theorem builds_intoGuest : ∀ (t : HostType) (data : t.Carrier), Builds (intoGuest t data)
  | .unit, _ => .pure _
  | .bool, _ => .pure _
  | .int64, _ => .pure _
  | .int32, _ => .pure _
  | .size, _ => .pure _
  | .float, _ => .pure _
  | .text, s => builds_textValue s
  | .option _, none => .pure _
  | .option t, some data => builds_intoGuest t data
  | .document, d => builds_documentValue d
  | .value, _ => .pure _
  | .list t, items => by
      have each : ∀ items : List t.Carrier, Builds (List.mapM (intoGuest t) items) := by
        intro items
        induction items with
        | nil => exact .pure _
        | cons item rest ih =>
            rw [List.mapM_cons]
            exact (builds_intoGuest t item).bind fun _ => ih.bind fun _ => .pure _
      exact (each items).bind fun _ => .arrayNew _

end Act

/-! ## Filling a hash -/

/-- A hash that is not frozen, with its table. -/
def Object.ofTable (t : HashTable) : Object := { cls := Builtin.hash.id, body := .hash t }

theorem Scene.step_hashSet {m : Machine} {h : ObjId} {t : HashTable} {key : Value}
    (present : m.object? h = some (.ofTable t))
    (asIs : ¬ (m.typeOf key = .string ∧ !m.isFrozen key)) (v : Value)
    (next : Except Raised Unit → Script) (pending : List Pending) :
    Scene.step ⟨.guest (.hashSet (.obj h) key v) next, pending, { machine := m }⟩ =
      some ⟨next (.ok ()), pending,
        { machine := m.withTable h (t.insert (m.hashKey key) key v) }⟩ := by
  have set : (Act.answer (.hashSet (.obj h) key v)).run.run m =
      (.ok (.ok ()), m.withTable h (t.insert (m.hashKey key) key v)) := by
    change (Act.attempt (Act.hashSet (.obj h) key v)).run.run m = _
    rw [Act.run_attempt, Act.run_hashSet_asIs present rfl rfl asIs]
    rfl
  exact step_guest_of_run (s := { machine := m }) set next pending

/-- An integer is its own key. -/
theorem Scene.step_hashSet_int {m : Machine} {h : ObjId} {t : HashTable}
    (present : m.object? h = some (.ofTable t)) (n : Int64) (v : Value)
    (next : Except Raised Unit → Script) (pending : List Pending) :
    Scene.step ⟨.guest (.hashSet (.obj h) (.int n) v) next, pending, { machine := m }⟩ =
      some ⟨next (.ok ()), pending,
        { machine := m.withTable h (t.insert (.int n) (.int n) v) }⟩ := by
  have immediate : m.typeOf (.int n) ≠ .string := nofun
  exact Scene.step_hashSet present (fun both => immediate both.1) v next pending

end GuestVM
