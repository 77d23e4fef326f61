import GuestVM.Proofs.Machine.Methods

/-! # Who writes tables of methods

Few operations write a table of methods, and these say in which row.  `Machine.Rewritten` says of
two machines that nothing but such rows differs, and that a new row is one of a symbol with a name;
`Act.Writes` says it of every way in which an action ends.  What an operation raises is of no
matter here, for nothing is new then but an exception, which has no methods. -/
set_option autoImplicit false

namespace GuestVM

/-- What may be written in tables of methods. -/
structure Writing where
  /-- The rows that may be written. -/
  rows : ObjId → Sym → Prop
  /-- The symbols that may be used where they have no name. -/
  nameless : Sym → Prop

namespace SymbolTable

theorem size_intern (t : SymbolTable) (name : String) : t.size ≤ (t.intern name).2.size := by
  unfold intern
  split
  · exact Nat.le_refl _
  · simp [size]

theorem size_internAll (names : List String) (t : SymbolTable) :
    t.size ≤ (t.internAll names).size := by
  induction names generalizing t with
  | nil => exact Nat.le_refl _
  | cons name rest ih => exact Nat.le_trans (t.size_intern name) (ih _)

end SymbolTable

namespace Object

theorem methods_of_tag {o : Object} (other : o.tag.isClassLike = false) : o.methods = {} := by
  obtain ⟨cls, frozen, ivars, body⟩ := o
  cases body with
  | «class» data =>
      rw [isClassLike_of_body rfl] at other
      cases other
  | _ => rfl

end Object

/-! ## Machines before and after -/

/-- From `m` to `m'` no rows were written but those that may be. -/
structure Machine.Rewritten (w : Writing) (m m' : Machine) : Prop where
  size : m.symbols.size ≤ m'.symbols.size
  rows : ∀ x s, ¬ w.rows x s → m'.ownMethod? x s = m.ownMethod? x s
  named : ∀ x s, (m'.ownMethod? x s).isSome →
    (m.ownMethod? x s).isSome ∨ s.index < m'.symbols.size ∨ w.nameless s

namespace Machine.Rewritten

variable {w : Writing} {m m' m'' : Machine} {o : Object} {id : ObjId} {f : Object → Object}

theorem of_same (size : m.symbols.size ≤ m'.symbols.size)
    (rows : ∀ x s, m'.ownMethod? x s = m.ownMethod? x s) : m.Rewritten w m' :=
  ⟨size, fun x s _ => rows x s, fun x s own => .inl (rows x s ▸ own)⟩

theorem refl (m : Machine) : m.Rewritten w m := .of_same (Nat.le_refl _) fun _ _ => rfl

theorem trans (first : m.Rewritten w m') (second : m'.Rewritten w m'') : m.Rewritten w m'' where
  size := Nat.le_trans first.size second.size
  rows x s other := (second.rows x s other).trans (first.rows x s other)
  named x s own := by
    rcases second.named x s own with before | named | nameless
    · rcases first.named x s before with before | named | nameless
      · exact .inl before
      · exact .inr (.inl (Nat.lt_of_lt_of_le named second.size))
      · exact .inr (.inr nameless)
    · exact .inr (.inl named)
    · exact .inr (.inr nameless)

theorem of_objects (size : m.symbols.size ≤ m'.symbols.size)
    (objects : ∀ x, (m'.object? x).map Object.methods = (m.object? x).map Object.methods ∨
      m.object? x = none ∧ ∀ o, m'.object? x = some o → o.methods = {}) : m.Rewritten w m' := by
  refine .of_same size fun x s => ?_
  rw [ownMethod?_eq_bind, ownMethod?_eq_bind]
  rcases objects x with same | ⟨dead, bare⟩
  · have rows : ((m'.object? x).map Object.methods).bind (·.get? s) =
        ((m.object? x).map Object.methods).bind (·.get? s) := by rw [same]
    simpa only [Option.bind_map, Function.comp_def] using rows
  · cases present : m'.object? x with
    | none => rw [dead]
    | some o =>
        rw [dead, Option.bind_some, bare o present]
        rfl

theorem of_slots (slots : m'.heap.slots = m.heap.slots) (symbols : m'.symbols = m.symbols) :
    m.Rewritten w m' := by
  refine .of_objects (Nat.le_of_eq (by rw [symbols])) fun x => .inl ?_
  simp only [object?, Heap.get?, Heap.cell?, slots]

theorem interning (name : String) : m.Rewritten w (m.interning [name]) :=
  .of_same (m.symbols.size_intern name) fun _ _ => rfl

theorem withNew (tidy : m.heap.Tidy) (bare : o.methods = {}) : m.Rewritten w (m.withNew o) := by
  refine .of_objects (Nat.le_refl _) fun x => ?_
  rw [object?_withNew tidy]
  split
  case isTrue new =>
      refine .inr ⟨new ▸ newId_dead tidy o, fun p same => ?_⟩
      cases same
      exact bare
  case isFalse => exact .inl rfl

theorem modify (same : ∀ o, m.object? id = some o → (f o).methods = o.methods) :
    m.Rewritten w { m with heap := m.heap.modify id f } := by
  refine .of_objects (Nat.le_refl _) fun x => .inl ?_
  rw [object?_modify]
  split
  case isTrue self =>
      subst self
      cases present : m.object? x with
      | none => rfl
      | some o => exact congrArg some (same o present)
  case isFalse => rfl

theorem of_spared {e : Raised} (spared : m.Spared e m') (tidy : m.heap.Tidy) :
    m'.heap.Tidy ∧ m.Rewritten w m' := by
  obtain ⟨names, c, same, -⟩ := spared
  subst same
  have interned : m.Rewritten w (m.interning names) :=
    .of_same (SymbolTable.size_internAll names m.symbols) fun _ _ => rfl
  have made : (m.interning names).Rewritten w
      ((m.interning names).withNew { cls := c, body := .exception e.message }) :=
    .withNew (m := m.interning names) tidy rfl
  exact ⟨Heap.Tidy.alloc tidy _, interned.trans (made.trans (.of_slots rfl rfl))⟩

theorem withMethod {c : ObjId} {mid : Sym} (method : Method) (may : w.rows c mid)
    (known : mid.index < m.symbols.size ∨ w.nameless mid) :
    m.Rewritten w (m.withMethod c mid method) where
  size := Nat.le_refl _
  rows x s other := ownMethod?_withMethod_of_ne fun same => other (same.1 ▸ same.2 ▸ may)
  named x s own := by
    by_cases same : x = c ∧ s = mid
    · rw [same.2]
      exact .inr known
    · exact .inl (ownMethod?_withMethod_of_ne same ▸ own)

theorem withoutMethod {c : ObjId} {mid : Sym} (may : w.rows c mid) :
    m.Rewritten w (m.withoutMethod c mid) where
  size := Nat.le_refl _
  rows x s other := ownMethod?_withoutMethod_of_ne fun same => other (same.1 ▸ same.2 ▸ may)
  named x s own := by
    by_cases same : x = c ∧ s = mid
    · rw [same.1, same.2, ownMethod?_withoutMethod_self] at own
      cases own
    · exact .inl (ownMethod?_withoutMethod_of_ne same ▸ own)

end Machine.Rewritten

/-! ## Actions -/

namespace Act

variable {α β : Type} {w : Writing} {m : Machine} {a : Act α}

/-- The action ends with a result. -/
def Succeeds (a : Act α) (m : Machine) : Prop := ∃ x m', a.run.run m = (.ok x, m')

/-- However the action ends it has written what may be written and nothing else. -/
def Writes (w : Writing) (a : Act α) (m : Machine) : Prop :=
  m.heap.Tidy →
    match a.run.run m with
    | (.error .endless, _) => True
    | (_, m') => m'.heap.Tidy ∧ m.Rewritten w m'

namespace Writes

theorem ensures (writes : Writes w a m) (tidy : m.heap.Tidy) :
    Ensures a m (fun _ m' => m'.heap.Tidy ∧ m.Rewritten w m')
      fun _ m' => m'.heap.Tidy ∧ m.Rewritten w m' := ensures_leaving.mpr (writes tidy)

theorem of_ensures (ensures : m.heap.Tidy → Ensures a m
    (fun _ m' => m'.heap.Tidy ∧ m.Rewritten w m') fun _ m' => m'.heap.Tidy ∧ m.Rewritten w m') :
    Writes w a m := fun tidy => ensures_leaving.mp (ensures tidy)

theorem of_tidy (writes : m.heap.Tidy → Writes w a m) : Writes w a m := fun tidy => writes tidy tidy

theorem of_run {x : α} {m' : Machine} (ran : a.run.run m = (.ok x, m'))
    (after : m.heap.Tidy → m'.heap.Tidy ∧ m.Rewritten w m') : Writes w a m := by
  intro tidy
  rw [ran]
  exact after tidy

theorem of_spares {post : α → Machine → Prop} (spares : Spares a m post)
    (after : ∀ x m', post x m' → m.heap.Tidy → m'.heap.Tidy ∧ m.Rewritten w m') :
    Writes w a m :=
  of_ensures fun tidy => (spares.ensures tidy).mono (fun x m' told => after x m' told tidy)
    fun _ _ spared => Machine.Rewritten.of_spared spared tidy

theorem of_check (spares : Spares a m fun _ m' => m' = m) : Writes w a m :=
  of_spares spares fun _ _ same tidy => same.symm ▸ ⟨tidy, .refl m⟩

protected theorem pure (x : α) : Writes w (pure x) m := fun tidy => ⟨tidy, .refl m⟩

protected theorem bind {b : α → Act β} (first : Writes w a m)
    (rest : ∀ x m', a.run.run m = (.ok x, m') → Writes w (b x) m') : Writes w (a >>= b) m := by
  refine of_ensures fun tidy => (first.ensures tidy).ran.bind fun x middle before => ?_
  obtain ⟨ran, tidy', written⟩ := before
  exact ((rest x middle ran).ensures tidy').mono
    (fun _ _ after => ⟨after.1, written.trans after.2⟩)
    fun _ _ after => ⟨after.1, written.trans after.2⟩

theorem get_bind {f : Machine → Act β} (rest : Writes w (f m) m) :
    Writes w ((get : Act Machine) >>= f) m := rest

theorem told_bind {told : α → Prop} {b : α → Act β}
    (check : Spares a m fun x m' => m' = m ∧ told x) (rest : ∀ x, told x → Writes w (b x) m) :
    Writes w (a >>= b) m := by
  refine Writes.of_tidy fun tidy =>
    (Writes.of_check (check.mono fun _ _ told => told.1)).bind fun x m' ran => ?_
  obtain ⟨rfl, tells⟩ := check.of_ok tidy ran
  exact rest x tells

theorem check_bind {b : α → Act β} (check : Spares a m fun _ m' => m' = m)
    (rest : ∀ x, Writes w (b x) m) : Writes w (a >>= b) m :=
  told_bind (check.mono fun _ _ same => ⟨same, trivial⟩) fun x _ => rest x

protected theorem map {f : α → β} (writes : Writes w a m) : Writes w (f <$> a) m := by
  rw [← bind_pure_comp]
  exact writes.bind fun _ _ _ => .pure _

protected theorem attempt (writes : Writes w a m) : Writes w (attempt a) m :=
  of_ensures fun tidy => (writes.ensures tidy).attempt (fun _ _ written => written)
    fun _ _ written => written

theorem throwing {make : Act Raised} (writes : Writes w make m) :
    Writes w (Act.throwing make : Act α) m :=
  of_ensures fun tidy => (writes.ensures tidy).throwing

theorem throwing_bind {make : Act Raised} (writes : Writes w make m) (b : α → Act β) :
    Writes w (Act.throwing make >>= b) m := throwing_bind_eq make b ▸ throwing writes

theorem inArenaScope (writes : Writes w a m) : Writes w (inArenaScope a) m :=
  of_ensures fun tidy => (writes.ensures tidy).inArenaScope
    (fun _ _ before => ⟨before.1, before.2.trans (.of_slots rfl rfl)⟩)
    fun _ _ before => ⟨before.1, before.2.trans (.of_slots rfl rfl)⟩

theorem mapM {f : β → Act α} (each : ∀ x m, Writes w (f x) m) :
    ∀ (xs : List β) (m : Machine), Writes w (xs.mapM f) m
  | [], _ => by
      rw [List.mapM_nil]
      exact .pure []
  | x :: rest, m => by
      rw [List.mapM_cons]
      exact (each x m).bind fun _ _ _ => (mapM each rest _).bind fun _ _ _ => .pure _

end Writes

/-! ## Single steps -/

theorem writes_alloc {o : Object} (bare : o.methods = {}) : Writes w (alloc o) m :=
  .of_run rfl fun tidy => ⟨tidy.alloc o, .withNew tidy bare⟩

theorem writes_touch {id : ObjId} {f : Object → Object}
    (same : ∀ o, m.object? id = some o → (f o).methods = o.methods) :
    Writes w (onHeap fun h => h.modify id f) m :=
  .of_run rfl fun tidy => ⟨tidy.modify id f, .modify same⟩

theorem writes_setBody {id : ObjId} {b : Body} {t : ValueType} (typed : m.typeOf (.obj id) = t)
    (other : t.isClassLike = false)
    (bare : ∀ o : Object, ({ o with body := b } : Object).methods = {}) :
    Writes w (setBody id b) m := by
  refine writes_touch fun o present => (bare o).trans (Object.methods_of_tag ?_).symm
  rw [Machine.typeOf_obj present] at typed
  rw [typed, other]

/-! ## Containers -/

/-- Operations that change a container look at its type and then at its flag. -/
theorem writes_checked {v : Value} {t : ValueType} {rest : ObjId → Act α}
    (writes : ∀ id, m.typeOf (.obj id) = t → Writes w (rest id) m) :
    Writes w (expectType v t >>= fun id => checkFrozen v >>= fun _ => rest id) m := by
  refine .told_bind (spares_expectType_typed v t) fun id told => ?_
  obtain ⟨rfl, typed⟩ := told
  exact .check_bind (spares_checkFrozen _) fun _ => writes id typed

theorem writes_freeze (v : Value) : Writes w (freeze v) m := by
  cases v with
  | obj id => exact writes_touch fun _ _ => rfl
  | _ => exact .pure ()

theorem writes_storedKey (key : Value) : Writes w (storedKey key) m := by
  refine .get_bind ?_
  split
  · exact ((writes_alloc rfl).bind fun _ _ _ => .pure _).bind fun copy _ _ =>
      (writes_freeze copy).bind fun _ _ _ => .pure _
  · exact .pure _

theorem writes_hashSet (h key v : Value) : Writes w (hashSet h key v) m := by
  refine writes_checked fun id typed => .of_tidy fun tidy =>
    (writes_storedKey key).bind fun stored m' ran => .get_bind ?_
  obtain ⟨o, present⟩ := Machine.live_of_typeOf typed (by decide)
  obtain ⟨_, _, ran', kept⟩ := run_storedKey tidy key
  cases ran'.symm.trans ran
  have typed' : m'.typeOf (.obj id) = .hash := by
    rw [Machine.typeOf_obj (kept id o present), ← Machine.typeOf_obj present, typed]
  exact writes_setBody typed' rfl fun _ => rfl

end Act

end GuestVM
