import GuestVM.Proofs.Machine.Doing
import GuestVM.Proofs.Machine.Naming

/-! # What operations leave alone

No operation touches the running calls, the protected regions or the walks that are under way, and
what is on the arena when an operation begins is on it when the operation ends.  An operation that
raises leaves the exception it raised in the slot, and says of it what there is to say; one that does
not leaves the slot alone.  `Act.Calm` says this of an action.  What a result tells about the slot is
its parameter, for an attempt that caught an exception ends well and has changed the slot all the
same.

The lemmas are put together as the actions are: one for each way to combine actions, then one for
each action that checks and raises. -/
set_option autoImplicit false

namespace GuestVM

structure Machine.Steady (m m' : Machine) : Prop where
  tidy : m.heap.Tidy → m'.heap.Tidy
  frames : m'.frames = m.frames
  regions : m'.protectDepth = m.protectDepth
  walks : m'.heap.walks = m.heap.walks
  arena : m.heap.arena.toList <+: m'.heap.arena.toList

namespace Machine.Steady

variable {m m' m'' : Machine}

theorem refl (m : Machine) : m.Steady m := ⟨id, rfl, rfl, rfl, List.prefix_rfl⟩

theorem trans (first : m.Steady m') (second : m'.Steady m'') : m.Steady m'' where
  tidy := second.tidy ∘ first.tidy
  frames := second.frames.trans first.frames
  regions := second.regions.trans first.regions
  walks := second.walks.trans first.walks
  arena := first.arena.trans second.arena

theorem of_heap {h : Heap} (tidy : m.heap.Tidy → h.Tidy) (walks : h.walks = m.heap.walks)
    (arena : m.heap.arena.toList <+: h.arena.toList) : m.Steady { m with heap := h } :=
  ⟨tidy, rfl, rfl, walks, arena⟩

theorem pushArena (id : ObjId) : m.Steady { m with heap := m.heap.arenaPush id } := by
  refine of_heap (fun tidy => tidy) rfl ?_
  simp [Heap.arenaPush]

theorem withNew (o : Object) : m.Steady (m.withNew o) := by
  refine of_heap (fun tidy => tidy.alloc o) ?_ ?_ <;> unfold Heap.alloc <;> split <;> simp

theorem modify (id : ObjId) (f : Object → Object) :
    m.Steady { m with heap := m.heap.modify id f } :=
  of_heap (fun tidy => tidy.modify id f) rfl List.prefix_rfl

theorem collect (roots : List ObjId) : m.Steady { m with heap := (m.heap.collect roots).2 } := by
  have arena : m.heap.arena.toList <+: (m.heap.collect roots).2.arena.toList :=
    (Heap.collect_arena m.heap roots).symm ▸ List.prefix_rfl
  exact of_heap (fun tidy => tidy.collect roots) (Heap.collect_walks _ _) arena

/-- The arena is cut back to where it was, so what was on it then stays. -/
theorem cut (steady : m.Steady m') :
    (m'.heap.arenaRestore m.heap.arenaSave).arena = m.heap.arena := by
  have whole := List.prefix_iff_eq_take.mp steady.arena
  rw [Array.length_toList] at whole
  apply Array.toList_inj.mp
  simp [Heap.arenaRestore, Heap.arenaSave, ← whole]

end Machine.Steady

/-! ## What is said of the current exception -/

/-- The class name and the message are those of the value now. -/
structure Machine.Describes (m : Machine) (e : Raised) : Prop where
  named : m.realClassName e.value = some e.className
  message : m.exceptionMessage e.value = e.message

/-- What was raised is the current exception, described as it is now. -/
structure Machine.Tells (m : Machine) (e : Raised) : Prop extends m.Describes e where
  current : m.exc = e.value.asObj
  typed : m.typeOf e.value = .exception

theorem Machine.Tells.congr {m m' : Machine} {e : Raised} (tells : m.Tells e)
    (slots : m'.heap.slots = m.heap.slots) (symbols : m'.symbols = m.symbols)
    (exc : m'.exc = m.exc) : m'.Tells e where
  current := exc.trans tells.current
  named := (Machine.realClassName_congr slots symbols e.value).trans tells.named
  message := (Machine.exceptionMessage_congr slots e.value).trans tells.message
  typed := (Machine.typeOf_congr slots e.value).trans tells.typed

/-- The slot of the current exception is what it was. -/
def Act.Silent {α : Type} (before : Option ObjId) (_ : α) (m : Machine) : Prop := m.exc = before

/-- A caught exception is the current one. -/
def Act.Attempted {α : Type} (before : Option ObjId) (r : Except Raised α) (m : Machine) : Prop :=
  match r with
  | .ok _ => m.exc = before
  | .error e => m.Tells e

/-- An exception that was made is the current one. -/
def Act.Made (_ : Option ObjId) (e : Raised) (m : Machine) : Prop := m.Tells e

/-- A value stands for the current exception. -/
def Machine.Hands (m : Machine) (v : Value) : Prop := ∃ e, m.Tells e ∧ v = e.value

/-- What the value stands for is what the machine says of it. -/
theorem Machine.Hands.tells {m : Machine} {v : Value} {e : Raised} (hands : m.Hands v)
    (described : v = e.value ∧ m.Describes e) : m.Tells e := by
  obtain ⟨made, tells, same⟩ := hands
  rw [described.1] at same
  exact ⟨described.2, same ▸ tells.current, same ▸ tells.typed⟩

theorem Machine.Hands.described {m : Machine} {v : Value} (hands : m.Hands v) :
    ∃ e, v = e.value ∧ m.Describes e := by
  obtain ⟨made, tells, same⟩ := hands
  exact ⟨made, same, tells.toDescribes⟩

/-- A value stands for the exception that was made current. -/
def Act.Handed (_ : Option ObjId) (v : Value) (m : Machine) : Prop := m.Hands v

/-- An exception that a check has found is the current one. -/
def Act.Found (before : Option ObjId) (found : Option Value) (m : Machine) : Prop :=
  match found with
  | none => m.exc = before
  | some v => m.Hands v

/-- A value that is there in place of a result stands for the current exception. -/
def Act.Refused {α : Type} (before : Option ObjId) (r : Except Value α) (m : Machine) : Prop :=
  match r with
  | .ok _ => m.exc = before
  | .error v => m.Hands v

namespace Act

variable {α β : Type} {a : Act α} {m : Machine}

/-- However the action ends it has been steady.  With an exception it ends right after raising it. -/
def CalmAt (m : Machine) (a : Act α) (post : α → Machine → Prop) : Prop :=
  match a.run.run m with
  | (.ok x, m') => m.Steady m' ∧ post x m'
  | (.error (.raised e), m') => m.Steady m' ∧ m'.Tells e
  | (.error .endless, _) => True

/-- What a result tells of the slot may mention the slot as it was before. -/
def Calm (a : Act α) (post : Option ObjId → α → Machine → Prop) : Prop :=
  ∀ m, m.heap.Tidy → CalmAt m a (post m.exc)

/-! ## Rules -/

namespace CalmAt

theorem ensures {post : α → Machine → Prop} (calm : CalmAt m a post) :
    Ensures a m (fun x m' => m.Steady m' ∧ post x m') fun e m' => m.Steady m' ∧ m'.Tells e := calm

theorem of_ensures {post : α → Machine → Prop}
    (ensures : Ensures a m (fun x m' => m.Steady m' ∧ post x m')
      fun e m' => m.Steady m' ∧ m'.Tells e) : CalmAt m a post := ensures

theorem of_run {x : α} {m' : Machine} {post : α → Machine → Prop}
    (ran : a.run.run m = (.ok x, m')) (steady : m.Steady m') (told : post x m') :
    CalmAt m a post := by
  rw [CalmAt, ran]
  exact ⟨steady, told⟩

protected theorem pure {x : α} {post : α → Machine → Prop} (told : post x m) :
    CalmAt m (pure x) post := of_run rfl (.refl m) told

/-- Two actions in a row, the second one judged by what the first one has told. -/
protected theorem bind {b : α → Act β} {middle : α → Machine → Prop} {post : β → Machine → Prop}
    (tidy : m.heap.Tidy) (first : CalmAt m a middle)
    (rest : ∀ x m', middle x m' → m'.heap.Tidy → CalmAt m' (b x) post) :
    CalmAt m (a >>= b) post := by
  refine of_ensures (first.ensures.bind fun x inner before => ?_)
  obtain ⟨steady, told⟩ := before
  exact (rest x inner told (steady.tidy tidy)).ensures.mono
    (fun _ _ after => ⟨steady.trans after.1, after.2⟩)
    fun _ _ after => ⟨steady.trans after.1, after.2⟩

end CalmAt

namespace Calm

variable {post : Option ObjId → α → Machine → Prop}

theorem of_run (step : Machine → Machine) (result : Machine → α)
    (ran : ∀ m, a.run.run m = (.ok (result m), step m)) (steady : ∀ m : Machine, m.Steady (step m))
    (exc : ∀ m, (step m).exc = m.exc) : Calm a Silent :=
  fun m _ => .of_run (ran m) (steady m) (exc m)

protected theorem pure (x : α) : Calm (pure x) Silent := fun _ _ => .pure rfl

protected theorem get : Calm (get : Act Machine) Silent :=
  of_run id id (fun _ => rfl) Machine.Steady.refl fun _ => rfl

protected theorem bind {b : α → Act β} {next : Option ObjId → β → Machine → Prop}
    (first : Calm a Silent) (rest : ∀ x, Calm (b x) next) : Calm (a >>= b) next :=
  fun m tidy => (first m tidy).bind tidy fun x m' same tidy' => same ▸ rest x m' tidy'

theorem get_bind {f : Machine → Act β} {next : Option ObjId → β → Machine → Prop}
    (rest : ∀ m, Calm (f m) next) : Calm ((get : Act Machine) >>= f) next := Calm.get.bind rest

/-- What is told of a result may be told of what is made of it. -/
theorem returning {f : α → β} {next : Option ObjId → β → Machine → Prop} (calm : Calm a post)
    (told : ∀ before x m, post before x m → next before (f x) m) :
    Calm (do return f (← a)) next :=
  fun m tidy => (calm m tidy).bind tidy fun x m' known _ => .pure (told m.exc x m' known)

theorem map {f : α → β} (calm : Calm a Silent) : Calm (f <$> a) Silent := by
  rw [← bind_pure_comp]
  exact calm.bind fun _ => .pure _

theorem throwing {make : Act Raised} (calm : Calm make Made) :
    Calm (Act.throwing make : Act α) post :=
  fun m tidy => .of_ensures (calm m tidy).ensures.throwing

theorem throwing_bind {make : Act Raised} {b : α → Act β}
    {next : Option ObjId → β → Machine → Prop} (calm : Calm make Made) :
    Calm (Act.throwing make >>= b) next := throwing_bind_eq make b ▸ throwing calm

protected theorem attempt (calm : Calm a Silent) : Calm (attempt a) Attempted :=
  fun m tidy => .of_ensures ((calm m tidy).ensures.attempt (fun _ _ told => told)
    fun _ _ told => told)

/-- An attempt, where an exception that is caught becomes the result. -/
theorem attempt_bind {b : Except Raised α → Act β} {next : Option ObjId → β → Machine → Prop}
    (calm : Calm a Silent) (result : Raised → β) (caught : ∀ e, b (.error e) = pure (result e))
    (told : ∀ before e (m : Machine), m.Tells e → next before (result e) m)
    (rest : ∀ x, Calm (b (.ok x)) next) : Calm (Act.attempt a >>= b) next := by
  intro m tidy
  refine (calm.attempt m tidy).bind tidy fun r m' attempted tidy' => ?_
  cases r with
  | ok x =>
      have same : m'.exc = m.exc := attempted
      exact same ▸ rest x m' tidy'
  | error e =>
      rw [caught]
      exact .pure (told m.exc e m' attempted)

protected theorem modify (f : Machine → Machine) (steady : ∀ m : Machine, m.Steady (f m))
    (exc : ∀ m, (f m).exc = m.exc) : Calm (modify f : Act Unit) Silent :=
  of_run f (fun _ => ()) (fun _ => rfl) steady exc

end Calm

variable {post : Option ObjId → α → Machine → Prop}

/-! ## Single steps -/

theorem calm_ofOption (o : Option α) : Calm (ofOption o) Silent := by
  cases o with
  | none => exact fun _ _ => trivial
  | some x => exact .pure x

theorem calm_endless : Calm (throw .endless : Act α) post := fun _ _ => trivial

theorem calm_reading (f : Machine → α) : Calm (reading f) Silent := .get_bind fun _ => .pure _

theorem calm_describe (v : Value) : Calm (describe v) Silent := .get_bind fun _ => calm_ofOption _

theorem calm_intern (name : String) : Calm (intern name) Silent :=
  .of_run (fun m => { m with symbols := (m.symbols.intern name).2 }) _ (fun _ => rfl)
    (fun _ => ⟨fun tidy => tidy, rfl, rfl, rfl, List.prefix_rfl⟩) fun _ => rfl

theorem calm_alloc (o : Object) : Calm (alloc o) Silent :=
  .of_run (·.withNew o) _ (fun _ => rfl) (fun _ => .withNew o) fun _ => rfl

theorem calm_touch (id : ObjId) (f : Object → Object) :
    Calm (onHeap fun h => h.modify id f) Silent := .modify _ (fun _ => .modify id f) fun _ => rfl

theorem calm_setBody (id : ObjId) (b : Body) : Calm (setBody id b) Silent := calm_touch id _

theorem calm_protecting (id : ObjId) : Calm (protecting id) Silent :=
  .modify _ (fun _ => .pushArena id) fun _ => rfl

/-! ## Raising -/

theorem calm_exceptionNew (c : ObjId) (message : String) : Calm (exceptionNew c message) Silent :=
  (calm_alloc _).bind fun _ => .pure _

/-- Only here the slot is filled, and what is then said of it is read off the machine at once. -/
theorem calmAt_announce {v : Value} (typed : m.typeOf v = .exception) :
    CalmAt m (announce v) fun e m' => m'.Tells e := by
  rw [CalmAt, run_announce]
  cases named : ({ m with exc := v.asObj } : Machine).realClassName v with
  | none => trivial
  | some name =>
      exact ⟨⟨fun tidy => tidy, rfl, rfl, rfl, List.prefix_rfl⟩, ⟨named, rfl⟩, rfl, typed⟩

theorem calm_exceptionRaise (v : Value) : Calm (exceptionRaise v) Made := by
  intro m tidy
  by_cases typed : m.typeOf v = .exception
  · rw [CalmAt, run_exceptionRaise_of_exception typed]
    exact calmAt_announce typed
  · rw [CalmAt, run_exceptionRaise_of_other typed]
    exact CalmAt.bind tidy (.of_run rfl (.withNew _) (exception_new tidy _ _))
      fun _ _ typed _ => calmAt_announce typed

theorem calm_raise (c : ObjId) (message : String) : Calm (raise c message) Made :=
  (calm_exceptionNew c message).bind calm_exceptionRaise

theorem calm_fail (b : Builtin) (message : String) : Calm (fail b message : Act α) post :=
  .throwing (calm_raise b.id message)

theorem calm_fail_bind {next : Option ObjId → β → Machine → Prop} (b : Builtin) (message : String)
    (rest : α → Act β) : Calm (fail b message >>= rest) next :=
  .throwing_bind (calm_raise b.id message)

theorem calm_describe_fail (b : Builtin) (v : Value) (text : String → String) :
    Calm (do fail b (text (← describe v)) : Act α) post :=
  (calm_describe v).bind fun _ => calm_fail b _

theorem calm_frozenError (v : Value) : Calm (frozenError v) Made :=
  .get_bind fun _ => (calm_ofOption _).bind fun _ => calm_raise _ _

/-! ## Checks -/

theorem calm_checkFrozen (v : Value) : Calm (checkFrozen v) Silent := by
  refine .get_bind fun m => ?_
  split
  · exact .throwing (calm_frozenError v)
  · exact .pure ()

theorem calm_expecting (accepts : ValueType → Prop) [DecidablePred accepts]
    (complaint : String → String) (v : Value) : Calm (expecting accepts complaint v) Silent := by
  refine .get_bind fun m => ?_
  split
  · split
    · exact .pure _
    · exact calm_describe_fail _ v _
  · exact calm_describe_fail _ v _

theorem calm_expectType (v : Value) (t : ValueType) : Calm (expectType v t) Silent :=
  expectType_eq v t ▸ calm_expecting _ _ v

theorem calm_expectClass (v : Value) : Calm (expectClass v) Silent :=
  expectClass_eq v ▸ calm_expecting _ _ v

theorem calm_expectProc (v : Value) : Calm (expectProc v) Silent :=
  expectProc_eq v ▸ calm_expecting _ _ v

end Act

end GuestVM
