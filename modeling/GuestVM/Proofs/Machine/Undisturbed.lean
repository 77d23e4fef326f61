import GuestVM.Bridge
import GuestVM.Proofs.Machine.Calm
import GuestVM.Proofs.Machine.Containing

/-! # Operations are calm

One lemma for each operation of the machine, in the order of the modules that define them, and from
these what the answer to any request leaves alone. -/
set_option autoImplicit false

namespace GuestVM.Act

variable {α : Type}

/-! ## Arrays -/

section Arrays

theorem calm_arrayNew (items : List Value) : Calm (arrayNew items) Silent :=
  (calm_alloc _).bind fun _ => .pure _

theorem calm_arrayItems (a : Value) : Calm (arrayItems a) Silent :=
  (calm_expectType a _).bind fun _ => .get_bind fun _ => .pure _

theorem calm_arrayLen (a : Value) : Calm (arrayLen a) Silent :=
  (calm_arrayItems a).bind fun _ => .pure _

theorem calm_arrayGet (a : Value) (index : Int64) :
    Calm (arrayGet a index) Silent := (calm_arrayItems a).bind fun _ => .pure _

theorem calm_arrayValues (a : Value) : Calm (arrayValues a) Silent :=
  (calm_arrayItems a).bind fun _ => .pure _

theorem calm_arraySet (a : Value) (index : Int64) (v : Value) :
    Calm (arraySet a index v) Silent := by
  refine (calm_expectType a _).bind fun id => (calm_checkFrozen a).bind fun _ => .get_bind fun m => ?_
  dsimp only
  split
  · exact calm_fail_bind _ _ _
  split
  · exact calm_fail_bind _ _ _
  exact calm_setBody id _

theorem calm_arrayPush (a v : Value) : Calm (arrayPush a v) Silent := by
  refine (calm_expectType a _).bind fun id => (calm_checkFrozen a).bind fun _ => .get_bind fun m => ?_
  dsimp only
  split
  · exact calm_fail_bind _ _ _
  exact calm_setBody id _

end Arrays

/-! ## Strings and hashes -/

theorem calm_stringNew (bytes : List UInt8) : Calm (stringNew bytes) Silent :=
  (calm_alloc _).bind fun _ => .pure _

theorem calm_stringBytes (s : Value) : Calm (stringBytes s) Silent :=
  (calm_expectType s _).bind fun _ => .get_bind fun _ => .pure _

theorem calm_stringText (s : Value) : Calm (stringText s) Silent :=
  (calm_stringBytes s).bind fun _ => .pure _

theorem calm_stringLen (s : Value) : Calm (stringLen s) Silent :=
  (calm_stringBytes s).bind fun _ => .pure _

theorem calm_stringAppend (s : Value) (tail : String) :
    Calm (stringAppend s tail) Silent :=
  (calm_expectType s _).bind fun id => (calm_checkFrozen s).bind fun _ =>
    .get_bind fun _ => calm_setBody id _

theorem calm_freeze (v : Value) : Calm (freeze v) Silent := by
  cases v with
  | obj id => exact calm_touch id _
  | _ => exact .pure ()

theorem calm_hashNew : Calm hashNew Silent :=
  (calm_alloc _).bind fun _ => .pure _

theorem calm_hashTable (h : Value) : Calm (hashTable h) Silent :=
  (calm_expectType h _).bind fun _ => .get_bind fun _ => .pure _

theorem calm_storedKey (key : Value) : Calm (storedKey key) Silent := by
  refine .get_bind fun m => ?_
  split
  · exact (calm_stringNew _).bind fun copy => (calm_freeze copy).bind fun _ => .pure _
  · exact .pure _

theorem calm_hashSet (h key v : Value) : Calm (hashSet h key v) Silent :=
  (calm_expectType h _).bind fun id => (calm_checkFrozen h).bind fun _ =>
    (calm_storedKey key).bind fun _ => .get_bind fun _ => calm_setBody id _

theorem calm_hashGet (h key : Value) : Calm (hashGet h key) Silent :=
  (calm_hashTable h).bind fun _ => .get_bind fun _ => .pure _

theorem calm_hashDelete (h key : Value) :
    Calm (hashDelete h key) Silent :=
  (calm_expectType h _).bind fun id => (calm_checkFrozen h).bind fun _ =>
    .get_bind fun _ => (calm_setBody id _).bind fun _ => .pure _

theorem calm_hashLen (h : Value) : Calm (hashLen h) Silent :=
  (calm_hashTable h).bind fun _ => .pure _

theorem calm_hashEntries (h : Value) :
    Calm (hashEntries h) Silent := (calm_hashTable h).bind fun _ => .pure _

theorem calm_hashKeys (h : Value) : Calm (hashKeys h) Silent :=
  (calm_hashEntries h).bind fun _ => .pure _

theorem calm_hashValues (h : Value) : Calm (hashValues h) Silent :=
  (calm_hashEntries h).bind fun _ => .pure _

theorem calm_hashClear (h : Value) : Calm (hashClear h) Silent :=
  (calm_expectType h _).bind fun id => (calm_checkFrozen h).bind fun _ => calm_setBody id _

theorem calm_itemOr (a : ObjId) (index : Int64) (default : Value) :
    Calm (itemOr a index default) Silent := by
  refine (calm_arrayLen _).bind fun len => ?_
  split
  · exact .pure _
  · exact calm_arrayGet _ _

theorem calm_fetch (h : ObjId) (key : Value) : Calm (fetch h key) Silent := by
  refine (calm_hashGet _ _).bind fun found => ?_
  split
  · exact .pure _
  · exact calm_describe_fail _ key _

/-! ## Ranges -/

theorem calm_rangeNew (first last : Value) (exclusive : Bool) :
    Calm (rangeNew first last exclusive) Silent := (calm_alloc _).bind fun _ => .pure _

theorem calm_rangeData (r : Value) : Calm (rangeData r) Silent := by
  refine (calm_expectType r _).bind fun _ => .get_bind fun m => ?_
  split <;> exact .pure _

theorem calm_rangeSpan (r : Value) (len : Int64) (trunc : Bool) :
    Calm (rangeSpan r len trunc) Silent := by
  refine (calm_rangeData r).bind fun data => ?_
  split
  · split
    · exact .pure _
    · exact calm_describe_fail _ r _
  · exact calm_fail _ _

/-! ## Procs and environments -/

theorem calm_newNative (code : Value → Script) :
    Calm (newNative code) Silent := calm_alloc _

theorem calm_newLexical (code : Value → List Value → Script) :
    Calm (newLexical code) Silent := calm_alloc _

theorem calm_envNew (values : List Value) : Calm (envNew values) Silent :=
  calm_alloc _

theorem calm_setEnv (proc env : ObjId) : Calm (setEnv proc env) Silent :=
  calm_touch proc _

theorem calm_ownedEnv (proc : ObjId) : Calm (ownedEnv proc) Silent := by
  refine .get_bind fun m => ?_
  dsimp only
  split
  · exact calm_fail_bind _ _ _
  split
  · exact .pure _
  · exact calm_fail _ _

theorem calm_envPosition (env : ObjId) (index : Int64) :
    Calm (envPosition env index) Silent := by
  refine .get_bind fun m => ?_
  dsimp only
  split
  · exact calm_fail_bind _ _ _
  · exact .pure _

theorem calm_procEnvGet (proc : ObjId) (index : Int64) :
    Calm (procEnvGet proc index) Silent :=
  (calm_ownedEnv proc).bind fun env => (calm_envPosition env index).bind fun _ =>
    .get_bind fun _ => .pure _

theorem calm_procEnvSet (proc : ObjId) (index : Int64) (v : Value) :
    Calm (procEnvSet proc index v) Silent :=
  (calm_ownedEnv proc).bind fun env => (calm_envPosition env index).bind fun _ => calm_touch env _

theorem calm_ownEnvGet (index : Int64) : Calm (ownEnvGet index) Silent := by
  refine .get_bind fun m => ?_
  split
  · exact calm_procEnvGet _ _
  · exact calm_fail _ _

theorem calm_envOwner (proc : Value) : Calm (envOwner proc) Silent := by
  refine .get_bind fun m => ?_
  split
  · split
    · exact .pure _
    · exact calm_fail _ _
  · exact calm_fail _ _

theorem Calm.inArenaScope {a : Act α} (calm : Calm a Silent) :
    Calm (Act.inArenaScope a) Silent := by
  have cut : ∀ {m m' : Machine}, m.Steady m' →
      m.Steady { m' with heap := m'.heap.arenaRestore m.heap.arenaSave } := by
    intro m m' steady
    exact ⟨steady.tidy, steady.frames, steady.regions, steady.walks,
      steady.cut.symm ▸ List.prefix_rfl⟩
  exact fun m tidy => .of_ensures ((calm m tidy).ensures.inArenaScope
    (fun _ _ before => ⟨cut before.1, before.2⟩)
    fun _ _ before => ⟨cut before.1, before.2.congr rfl rfl rfl⟩)

/-- On every way out of a scope the arena is what it was on the way in. -/
theorem Calm.arena_inArenaScope {a : Act α} (calm : Calm a Silent) {m m' : Machine}
    {r : Except Halt α} (tidy : m.heap.Tidy) (ran : (Act.inArenaScope a).run.run m = (r, m'))
    (ends : r ≠ .error .endless) : m'.heap.arena = m.heap.arena := by
  have steady := calm m tidy
  rw [run_inArenaScope] at ran
  rcases inside : a.run.run m with ⟨(e | _) | x, after⟩
  · simp only [CalmAt, inside] at steady ran
    cases ran
    exact steady.1.cut
  · simp only [inside] at ran
    cases ran
    exact (ends rfl).elim
  · simp only [CalmAt, inside] at steady ran
    cases ran
    exact steady.1.cut

theorem calm_attachEnv (proc : Value) (values : List Value) :
    Calm (attachEnv proc values) Silent := by
  unfold attachEnv
  dsimp only
  split
  · exact calm_fail_bind _ _ _
  refine (calm_expectProc proc).bind fun id => ?_
  split
  · exact calm_fail_bind _ _ _
  refine .get_bind fun m => ?_
  split
  · exact calm_fail_bind _ _ _
  exact ((calm_envNew values).bind fun env => calm_setEnv id env).inArenaScope

theorem calm_attachedGet (proc : Value) (index : Int64) :
    Calm (envGet proc index) Silent :=
  (calm_envOwner proc).bind fun _ => calm_procEnvGet _ _

theorem calm_attachedSet (proc : Value) (index : Int64) (v : Value) :
    Calm (envSet proc index v) Silent :=
  (calm_envOwner proc).bind fun _ => calm_procEnvSet _ _ _

/-! ## Definitions -/

theorem calm_onClass (c : ObjId) (f : ClassData → ClassData) :
    Calm (onClass c f) Silent := calm_touch c _

theorem calm_putConst (c : ObjId) (s : Sym) (v : Value) :
    Calm (putConst c s v) Silent := calm_onClass c _

theorem calm_newClass (name : String) (superclass : Option ObjId) (kind : ClassKind) :
    Calm (newClass name superclass kind) Silent := by
  unfold newClass
  dsimp only
  split
  · exact (Calm.pure _).bind fun _ => calm_alloc _
  · exact (calm_intern name).map.bind fun _ => calm_alloc _

theorem calm_newSingleton (id : ObjId) (v : Value) (superclass : ObjId) :
    Calm (newSingleton id v superclass) Silent :=
  (calm_alloc _).bind fun s => (calm_touch id _).bind fun _ => .pure s

theorem calm_singletonWithin (n : Nat) (v : Value) :
    Calm (singletonWithin n v) Silent := by
  induction n generalizing v with
  | zero => exact calm_endless
  | succ n ih =>
      refine .get_bind fun m => ?_
      split
      · exact calm_fail _ _
      case h_2 id o _ =>
          split
          · exact .pure _
          split
          · exact (ih _).bind (calm_newSingleton id v)
          · exact (Calm.pure _).bind (calm_newSingleton id v)

theorem calm_singletonClass (v : Value) : Calm (singletonClass v) Silent :=
  .get_bind fun _ => calm_singletonWithin _ v

theorem calm_defineClass (outer : ObjId) (name : String) (superclass : Option ObjId) :
    Calm (defineClass outer name superclass) Silent := by
  refine (calm_intern name).bind fun s => .get_bind fun m => ?_
  dsimp only
  split
  · split
    · exact calm_fail_bind _ _ _
    refine (calm_expectClass _).bind fun id => ?_
    split
    · split
      · exact calm_fail_bind _ _ _
      · exact .pure _
    · exact .pure _
  · split
    · exact calm_fail_bind _ _ _
    exact (calm_newClass _ _ _).bind fun id => (calm_singletonClass _).bind fun _ =>
      (calm_putConst _ _ _).bind fun _ => .pure id

theorem calm_defineModule (outer : ObjId) (name : String) :
    Calm (defineModule outer name) Silent := by
  refine (calm_intern name).bind fun s => .get_bind fun m => ?_
  dsimp only
  split
  · split
    · exact calm_fail_bind _ _ _
    · exact calm_expectClass _
  · exact (calm_newClass _ _ _).bind fun id => (calm_putConst _ _ _).bind fun _ => .pure id

theorem calm_defineMethod (c : ObjId) (mid : Sym) (method : Method) :
    Calm (defineMethod c mid method) Silent :=
  (calm_expectClass _).bind fun _ => (calm_checkFrozen _).bind fun _ =>
    (calm_touch method.proc _).bind fun _ => calm_onClass c _

theorem calm_missingMethod (c : ObjId) (mid : Sym) :
    Calm (missingMethod c mid : Act α) Silent :=
  .get_bind fun _ => (calm_ofOption _).bind fun _ => calm_fail _ _

theorem calm_undefMethod (c : ObjId) (mid : Sym) :
    Calm (undefMethod c mid) Silent := by
  refine (calm_checkFrozen _).bind fun _ => .get_bind fun m => ?_
  split
  · exact calm_onClass c _
  · exact calm_missingMethod c mid

theorem calm_aliasMethod (c : ObjId) (new old : Sym) :
    Calm (aliasMethod c new old) Silent := by
  refine .get_bind fun m => (calm_ofOption _).bind fun found => ?_
  cases found with
  | some method => exact calm_defineMethod c new method
  | none => exact calm_missingMethod c old

theorem calm_constSet (c : ObjId) (name : String) (v : Value) :
    Calm (constSet c name v) Silent :=
  (calm_expectClass _).bind fun _ => (calm_checkFrozen _).bind fun _ =>
    (calm_intern name).bind fun s => calm_putConst c s v

theorem calm_constGet (c : ObjId) (name : String) :
    Calm (constGet c name) Silent := by
  refine .get_bind fun m => (calm_ofOption _).bind fun found => ?_
  cases found with
  | some v => exact .pure v
  | none => exact calm_fail _ _

theorem calm_globalSet (name : String) (v : Value) :
    Calm (globalSet name v) Silent :=
  (calm_intern name).bind fun s =>
    .modify (fun m => { m with globals := m.globals.insert s v })
      (fun _ => ⟨fun tidy => tidy, rfl, rfl, rfl, List.prefix_rfl⟩) fun _ => rfl

theorem calm_globalGet (name : String) : Calm (globalGet name) Silent :=
  (calm_intern name).bind fun _ => .get_bind fun _ => .pure _

theorem calm_ivarSet (target : Value) (name : String) (v : Value) :
    Calm (ivarSet target name v) Silent := by
  unfold ivarSet
  split
  case h_1 id =>
      exact (calm_checkFrozen _).bind fun _ => (calm_intern name).bind fun _ => calm_touch id _
  · exact calm_fail _ _

/-! ## Plain objects and the collector -/

theorem calm_objectNew (c : ObjId) : Calm (objectNew c) Silent := by
  refine .get_bind fun m => ?_
  split
  · exact calm_fail_bind _ _ _
  · exact (calm_alloc _).bind fun _ => .pure _

theorem calm_istructNew (c : ObjId) (word : Int64) :
    Calm (istructNew c word) Silent := (calm_alloc _).bind fun _ => .pure _

theorem calm_edit (id : ObjId) (e : Edit) : Calm (edit id e) Silent :=
  .get_bind fun _ => (calm_touch id _).bind fun _ => .pure _

theorem calm_collect : Calm collect Silent :=
  .of_run (fun m => { m with heap := (m.heap.collect m.roots).2 }) _ (fun _ => rfl)
    (fun _ => .collect _) fun _ => rfl

theorem calm_setCollecting (on : Bool) : Calm (setCollecting on) Silent :=
  .of_run (fun m => { m with heap := (m.heap.setDisabled !on).2 }) _ (fun _ => rfl)
    (fun _ => .of_heap (fun tidy => tidy) rfl List.prefix_rfl) fun _ => rfl

end GuestVM.Act
