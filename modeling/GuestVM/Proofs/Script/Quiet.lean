import GuestVM.Proofs.Machine.Building

/-! # Which answers tell of a raise

An answer that is a caught exception, or an exception as such, reports that something was raised; so
do the answers of the two bridge requests that make an exception current for host code.  What is
reported is the current exception then.  An answer that reports nothing leaves the slot as it was.
Two requests are exceptions to this, the one that clears the slot, and the one that cuts the arena
back, which leaves everything but the arena alone. -/
set_option autoImplicit false

namespace GuestVM

namespace Answer

def Reports : (a : Answer) → a.Carrier → Raised → Prop
  | .attempt _, r, e => r = .error e
  | .raised, made, e => made = e
  | _, _, _ => False

/-- What an answer tells of the slot, which held `before` when the request was made. -/
def Told : (a : Answer) → Option ObjId → a.Carrier → Machine → Prop
  | .attempt _ => Act.Attempted
  | .raised => Act.Made
  | _ => Act.Silent

variable {a : Answer} {before : Option ObjId} {x : a.Carrier} {m : Machine} {e : Raised}

theorem Told.tells (told : a.Told before x m) (reports : a.Reports x e) : m.Tells e := by
  cases a with
  | attempt α =>
      cases reports
      exact told
  | raised =>
      cases reports
      exact told
  | _ => exact reports.elim

theorem Told.silent (told : a.Told before x m) (none : ∀ e, ¬ a.Reports x e) : m.exc = before := by
  cases a with
  | attempt α =>
      cases x with
      | ok x => exact told
      | error e => exact (none e rfl).elim
  | raised => exact (none x rfl).elim
  | _ => exact told

end Answer

namespace BridgeRequest

/-- A value handed to host code stands for an exception, which is what the machine says of it. -/
def Reports {a : Answer} (r : BridgeRequest a) (x : a.Carrier) (m : Machine) (e : Raised) : Prop :=
  match r with
  | .raise _ _ | .raiseError _ => x = e.value ∧ m.Describes e
  | _ => a.Reports x e

def Told {a : Answer} (r : BridgeRequest a) : Option ObjId → a.Carrier → Machine → Prop :=
  match r with
  | .raise _ _ | .raiseError _ => Act.Handed
  | _ => a.Told

variable {a : Answer} {r : BridgeRequest a} {before : Option ObjId} {x : a.Carrier} {m : Machine}
  {e : Raised}

theorem Told.tells (told : r.Told before x m) (reports : r.Reports x m e) : m.Tells e := by
  cases r with
  | raise c message => exact Machine.Hands.tells told reports
  | raiseError e => exact Machine.Hands.tells told reports
  | _ =>
      have told : Answer.Told _ before x m := told
      exact told.tells reports

theorem Told.silent (told : r.Told before x m) (none : ∀ e, ¬ r.Reports x m e) :
    m.exc = before := by
  cases r with
  | raise c message => exact (not_exists.mpr none (Machine.Hands.described told)).elim
  | raiseError e => exact (not_exists.mpr none (Machine.Hands.described told)).elim
  | _ =>
      have told : Answer.Told _ before x m := told
      exact told.silent none

end BridgeRequest

/-- The request makes a guest value of host data. -/
def BridgeRequest.Converts {a : Answer} (r : BridgeRequest a) : Prop :=
  match r with
  | .intoGuest _ _ => True
  | _ => False

/-- The request neither clears the current exception nor cuts the arena back. -/
def GuestRequest.Plain {a : Answer} (r : GuestRequest a) : Prop :=
  match r with
  | .clearException | .arenaRestore _ => False
  | _ => True

namespace Act

/-! ## What the bridge adds -/

theorem calm_hostRaise (c : ObjId) (message : String) : Calm (hostRaise c message) Handed :=
  .get_bind fun _ => (calm_ofOption _).bind fun _ =>
    (calm_raise _ _).returning fun _ e _ tells => ⟨e, tells, rfl⟩

theorem calm_raiseError (e : HostError) : Calm (raiseError e) Handed :=
  .get_bind fun _ => (calm_ofOption _).bind fun _ => calm_hostRaise _ _

theorem calm_raiseIfLive (v : Value) : Calm (raiseIfLive v) Silent := by
  refine .get_bind fun m => ?_
  split
  · exact .throwing_bind (calm_exceptionRaise v)
  · exact .pure v

theorem calm_newBridged (form : Form) (function : Nat) :
    Calm (newBridged form function) Silent :=
  (calm_newNative _).bind fun _ => (calm_attachEnv _ _).bind fun _ => .pure _

theorem calm_installing (form : Form) (c : ObjId) (name : String) (function : Nat)
    (aspec : Aspec) :
    Calm (do
      let proc ← newBridged form function
      let mid ← intern name
      defineMethod c mid { proc := proc, noArg := aspec.isNone }
      return proc : Act ObjId) Silent :=
  (calm_newBridged form function).bind fun _ => (calm_intern name).bind fun _ =>
    (calm_defineMethod c _ _).bind fun _ => .pure _

theorem calm_defineBridged (form : Form) (c : ObjId) (name : String) (function : Nat)
    (aspec : Aspec) :
    Calm (defineBridged form c name function aspec) Silent :=
  (calm_installing form c name function aspec).inArenaScope

theorem calm_defineBridgedOn (form : Form) (v : Value) (name : String) (function : Nat)
    (aspec : Aspec) :
    Calm (defineBridgedOn form v name function aspec) Silent :=
  (calm_singletonClass v).bind fun c => calm_defineBridged form c name function aspec

theorem calm_defineCallable (form : Form) (place : Placement) (name : String) (function : Nat)
    (aspec : Aspec) :
    Calm (defineCallable form place name function aspec) Silent := by
  cases place with
  | method c => exact calm_defineBridged form c name function aspec
  | classMethod c => exact calm_defineBridgedOn form _ name function aspec
  | singletonMethod v => exact calm_defineBridgedOn form v name function aspec
  | moduleFunction c =>
      exact (calm_defineBridgedOn form _ name function aspec).bind fun _ =>
        calm_defineBridged form c name function aspec

theorem calm_callableProc (form : Form) (function : Nat) :
    Calm (callableProc form function) Silent :=
  (calm_newBridged form function).inArenaScope.bind fun proc =>
    (calm_protecting proc).bind fun _ => .pure _

/-! ### Admitting a call -/

theorem calm_callableName (function : Nat) :
    Calm (callableName function) Silent := by
  refine .get_bind fun m => ?_
  split <;> exact .pure _

theorem calm_missingCallable (function : Nat) : Calm (missingCallable function) Handed :=
  (calm_callableName function).bind fun _ => calm_hostRaise _ _

theorem calm_wrongForm (function : Nat) (form : Form) : Calm (wrongForm function form) Handed :=
  (calm_callableName function).bind fun _ => calm_hostRaise _ _

/-- A check that finds no exception has raised none. -/
theorem calm_checkArity (aspec : Aspec) (args : Value) :
    Calm (checkArity aspec args) Found := by
  unfold checkArity
  split
  · exact fun _ _ => .pure rfl
  refine (calm_arrayLen args).attempt_bind (fun e => some e.value) (fun _ => rfl)
    (fun _ e _ tells => ⟨e, tells, rfl⟩) fun argc => ?_
  dsimp only
  split
  · exact fun _ _ => .pure rfl
  · exact (calm_hostRaise _ _).returning fun _ _ _ handed => handed

/-- A call that is admitted has raised nothing. -/
theorem calm_resolveCall (slot : Option CallableSlot) (form : Form) (function : Nat) (args : Value) :
    Calm (resolveCall slot form function args) Refused := by
  have refused : ∀ {make : Act Value}, Calm make Handed →
      Calm (do return .error (← make) : Act (Except Value Callable)) Refused :=
    fun calm => calm.returning fun _ _ _ handed => handed
  unfold resolveCall
  cases slot with
  | none => exact refused (calm_missingCallable function)
  | some s =>
      dsimp only
      split
      · exact refused (calm_wrongForm function form)
      · cases form with
        | bound => exact fun _ _ => .pure rfl
        | free =>
            intro m tidy
            refine (calm_checkArity s.aspec args m tidy).bind tidy fun found m' told _ => ?_
            cases found with
            | none => exact .pure told
            | some v => exact .pure told

/-! ## Answers of the machine -/

theorem calm_answer {a : Answer} (r : GuestRequest a) (plain : r.Plain) :
    Calm (answer r) a.Told := by
  cases r with
  | inspect v => exact calm_describe v
  | portrait v depth => exact .get_bind fun _ => calm_ofOption _
  | intern name => exact calm_intern name
  | defineClass outer name superclass => exact (calm_defineClass outer name superclass).attempt
  | defineModule outer name => exact (calm_defineModule outer name).attempt
  | singletonClass v => exact (calm_singletonClass v).attempt
  | expectClass v => exact (calm_expectClass v).attempt
  | expectType v t => exact (calm_expectType v t).attempt
  | className c => exact .get_bind fun _ => calm_ofOption _
  | realClassOf v => exact .get_bind fun _ => calm_ofOption _
  | isKindOf v c => exact .get_bind fun _ => calm_ofOption _
  | findMethod c mid => exact .get_bind fun _ => (calm_ofOption _).bind fun _ => .pure _
  | respondTo v name => exact .get_bind fun _ => calm_ofOption _
  | constDefined c name => exact .get_bind fun _ => (calm_ofOption _).bind fun _ => .pure _
  | defineMethod c mid proc noArg => exact (calm_defineMethod c mid _).attempt
  | undefMethod c mid => exact (calm_undefMethod c mid).attempt
  | aliasMethod c new old => exact (calm_aliasMethod c new old).attempt
  | constSet c name v => exact (calm_constSet c name v).attempt
  | constGet c name => exact (calm_constGet c name).attempt
  | globalSet name v => exact calm_globalSet name v
  | globalGet name => exact calm_globalGet name
  | ivarSet target name v => exact (calm_ivarSet target name v).attempt
  | envNew values => exact calm_envNew values
  | setEnv proc env => exact calm_setEnv proc env
  | envGet proc index => exact (calm_procEnvGet proc index).attempt
  | envSet proc index v => exact (calm_procEnvSet proc index v).attempt
  | ownEnvGet index => exact (calm_ownEnvGet index).attempt
  | exceptionNew c message => exact calm_exceptionNew c message
  | exceptionRaise v => exact calm_exceptionRaise v
  | raise c message => exact calm_raise c message
  | frozenError v => exact calm_frozenError v
  | checkFrozen v => exact (calm_checkFrozen v).attempt
  | clearException => exact plain.elim
  | objectNew c => exact (calm_objectNew c).attempt
  | istructNew c word => exact calm_istructNew c word
  | freeze v => exact calm_freeze v
  | edit id e => exact calm_edit id e
  | arrayNew items => exact calm_arrayNew items
  | arrayLen a => exact (calm_arrayLen a).attempt
  | arrayGet a index => exact (calm_arrayGet a index).attempt
  | arraySet a index v => exact (calm_arraySet a index v).attempt
  | arrayPush a v => exact (calm_arrayPush a v).attempt
  | arrayItems a => exact (calm_arrayValues a).attempt
  | stringNew bytes => exact calm_stringNew bytes
  | stringBytes s => exact (calm_stringBytes s).attempt
  | stringText s => exact (calm_stringText s).attempt
  | stringLen s => exact (calm_stringLen s).attempt
  | stringAppend s tail => exact (calm_stringAppend s tail).attempt
  | hashNew => exact calm_hashNew
  | hashSet h key v => exact (calm_hashSet h key v).attempt
  | hashGet h key => exact (calm_hashGet h key).attempt
  | hashDelete h key => exact (calm_hashDelete h key).attempt
  | hashLen h => exact (calm_hashLen h).attempt
  | hashEntries h => exact (calm_hashEntries h).attempt
  | hashKeys h => exact (calm_hashKeys h).attempt
  | hashValues h => exact (calm_hashValues h).attempt
  | hashClear h => exact (calm_hashClear h).attempt
  | rangeNew first last exclusive => exact calm_rangeNew first last exclusive
  | rangeParts r => exact ((calm_rangeData r).bind fun _ => .pure _).attempt
  | rangeSpan r len trunc => exact (calm_rangeSpan r len trunc).attempt
  | arenaRestore mark => exact plain.elim
  | arenaPush id => exact calm_protecting id
  | collect => exact calm_collect
  | setCollecting on => exact calm_setCollecting on
  | _ => exact calm_reading _

end Act

/-! ## Answers of the bridge -/

namespace Bridge

open Act

variable {α : Type} {b : Bridge}

private theorem calm_lift {a : Act α} {post : Option ObjId → α → Machine → Prop}
    (calm : Calm a post) : Calm ((liftM a : Deed α).run b) fun before x m => post before x.1 m :=
  calm.returning fun _ _ _ told => told

private theorem calm_seeing (f : Bridge → Handle → Act α) {post : Option ObjId → α → Machine → Prop}
    (calm : ∀ h, Calm (f b h) post) :
    Calm ((seeing f).run b) fun before x m => post before x.1 m :=
  .get_bind fun m => calm_lift (calm m.handle)

/-- A request that only the bridge answers. -/
private theorem calm_beside {d : Deed α} (x : Machine → α × Bridge)
    (ran : ∀ m, (d.run b).run.run m = (.ok (x m), m)) :
    Calm (d.run b) Silent := .of_run id x ran Machine.Steady.refl fun _ => rfl

/-- All requests to the bridge but conversions into the guest, which need a tidy heap. -/
theorem calm_answer {a : Answer} (r : BridgeRequest a) (other : ¬ r.Converts) :
    Calm ((answer r).run b) fun before x m => r.Told before x.1 m := by
  cases r with
  | attachEnv proc values => exact calm_lift (calm_attachEnv proc values).attempt
  | envGet proc index => exact calm_lift (calm_attachedGet proc index).attempt
  | envSet proc index v => exact calm_lift (calm_attachedSet proc index v).attempt
  | envLen proc => exact calm_lift (calm_reading _)
  | raise c message => exact calm_lift (calm_hostRaise c message)
  | raiseError e => exact calm_lift (calm_raiseError e)
  | raiseIfLive v => exact calm_lift (calm_raiseIfLive v).attempt
  | defineCallable place name n aspec =>
      exact calm_seeing (fun b h => attempt (defineCallable (b.formOf h n .bound) place name n aspec))
        fun h => (calm_defineCallable _ place name n aspec).attempt
  | callableProc n =>
      exact calm_seeing (fun b h => attempt (callableProc (b.formOf h n .free) n))
        fun h => (calm_callableProc _ n).attempt
  | ownHandle => exact calm_lift (calm_reading _)
  | intoGuest t x => exact (other trivial).elim
  | fromGuest t v => exact .get_bind fun m => calm_lift (calm_ofOption (m.fromGuest t v).run)
  | itemOr a index default => exact calm_lift (calm_itemOr a index default).attempt
  | fetch h key => exact calm_lift (calm_fetch h key).attempt
  | lookup | unregister | callbackCount | dropTable | liveInstances | indexOf =>
      exact calm_beside (fun _ => _) fun _ => rfl
  | registerInstance => exact calm_beside (fun m => _) fun m => rfl
  | unregisterInstance => exact calm_beside (fun m => _) fun m => rfl
  | currentIndex => exact calm_beside (fun m => _) fun m => rfl

end Bridge

end GuestVM
