import GuestVM.Bridge
import GuestVM.Proofs.Bridge.Bridging

/-! # What requests are granted

The grant of a request: the ids that the machine may come to name through it, and which of the
rarer changes it makes.  Ids that a request only looks at are not among them.  Answering a request
is an evolution under its grant. -/
set_option autoImplicit false

namespace GuestVM

/-! ## Grants -/

def GuestRequest.grant : {a : Answer} → GuestRequest a → Grant
  | _, .defineClass outer _ parent =>
    { ids := parent.toList, founds := true, names := some outer }
  | _, .defineModule outer _ => { founds := true, names := some outer }
  | _, .singletonClass _ => { founds := true }
  | _, .defineMethod _ _ proc _ => { ids := [proc] }
  | _, .constSet _ _ v | _, .globalSet _ v | _, .ivarSet _ _ v | _, .arraySet _ _ v
  | _, .arrayPush _ v => { ids := Value.objects [v] }
  | _, .hashSet _ key v => { ids := Value.objects [key, v] }
  | _, .hashDelete h _ | _, .hashClear h => { drops := h.asObj }
  | _, .rangeNew first last _ => { ids := Value.objects [first, last] }
  | _, .envNew values | _, .arrayNew values => { ids := Value.objects values }
  | _, .setEnv proc env => { ids := [env], rebinds := some proc }
  | _, .envSet proc _ v => { ids := Value.objects [v], owner := some proc }
  | _, .exceptionNew c _ | _, .raise c _ | _, .istructNew c _ => { ids := [c] }
  | _, .arenaPush id => { ids := [id] }
  | _, .edit id _ => { edits := some id }
  | _, .collect => { sweeps := true }
  | _, .clearException => { clears := true }
  | _, _ => {}

def BridgeRequest.grant : {a : Answer} → BridgeRequest a → Grant
  | _, .attachEnv _ values => { ids := Value.objects values }
  | _, .envSet proc _ v => { ids := Value.objects [v], owner := proc.asObj }
  | _, .defineCallable _ _ _ _ => { founds := true }
  | _, .intoGuest t data => { ids := t.ids data }
  | _, _ => {}

/-- Whether a request can be answered where no hash but a given one loses entries.  Code that may take
entries out enters none, so a request that enters some is granted no hash. -/
def GuestRequest.Drops : {a : Answer} → GuestRequest a → Option ObjId → Prop
  | _, .hashSet _ _ _, d => d = none
  | _, .hashDelete h _, d | _, .hashClear h, d => d = h.asObj
  | _, _, _ => True

def BridgeRequest.Drops : {a : Answer} → BridgeRequest a → Option ObjId → Prop
  | _, .intoGuest _ _, d => d = none
  | _, _, _ => True

theorem GuestRequest.drops_grant {a : Answer} (r : GuestRequest a) : r.Drops r.grant.drops := by
  cases r <;> first | exact rfl | exact trivial

theorem BridgeRequest.drops_grant {a : Answer} (r : BridgeRequest a) : r.Drops r.grant.drops := by
  cases r <;> first | exact rfl | exact trivial

/-! ## Answers -/

namespace Act

variable {α : Type} {g : Grant} {m : Machine} {d : Option ObjId}

private theorem does_any {a : Act α} {post : α → Machine → Prop} (does : Does g a m post) :
    Does g a m fun _ _ => True := does.mono fun _ _ _ _ _ => trivial

theorem does_answer_dropping {a : Answer} (r : GuestRequest a) (may : r.Drops d) :
    Does { r.grant with drops := d } (answer r) m fun _ _ => True := by
  cases r with
  | inspect v => exact does_any (does_describe v)
  | portrait v depth => exact .get_bind (does_any (does_ofOption _))
  | intern name => exact does_any (does_intern name)
  | defineClass outer name superclass =>
      refine (does_defineClass rfl rfl (fun _ _ => rfl) ?_).attempt_any
      exact fun x same => Option.mem_toList.mpr same
  | defineModule outer name => exact (does_defineModule rfl fun _ => rfl).attempt_any
  | singletonClass v => exact (does_singletonClass rfl rfl v).attempt_any
  | expectClass v => exact (does_expectClass v).attempt_any
  | expectType v t => exact (does_expectType v t).attempt_any
  | className c => exact .get_bind (does_any (does_ofOption _))
  | realClassOf v => exact .get_bind (does_any (does_ofOption _))
  | isKindOf v c => exact .get_bind (does_any (does_ofOption _))
  | findMethod c mid => exact .get_bind ((does_ofOption _).bind fun _ _ _ _ _ => .pure trivial)
  | respondTo v name => exact .get_bind (does_any (does_ofOption _))
  | constDefined c name =>
      exact .get_bind ((does_ofOption _).bind fun _ _ _ _ _ => .pure trivial)
  | defineMethod c mid proc noArg =>
      exact (does_defineMethod c mid (.handed (List.mem_singleton_self proc))).attempt_any
  | undefMethod c mid => exact (does_undefMethod c mid).attempt_any
  | aliasMethod c new old => exact (does_aliasMethod c new old).attempt_any
  | constSet c name v => exact (does_constSet c name v fun _ member => member).attempt_any
  | constGet c name => exact (does_constGet c name).attempt_any
  | globalSet name v => exact does_globalSet name v fun _ member => member
  | globalGet name => exact does_globalGet name
  | ivarSet target name v => exact (does_ivarSet target name v fun _ member => member).attempt_any
  | envNew values => exact does_envNew fun _ member => .handed member
  | setEnv proc env => exact does_setEnv (.handed (List.mem_singleton_self env)) rfl
  | envGet proc index => exact (does_procEnvGet proc index).attempt_any
  | envSet proc index v => exact (does_procEnvSet index v (fun _ member => member) rfl).attempt_any
  | ownEnvGet index => exact (does_ownEnvGet index).attempt_any
  | exceptionNew c message =>
      exact does_any (does_exceptionNew message (.handed (List.mem_singleton_self c)))
  | exceptionRaise v => exact does_any (does_exceptionRaise v)
  | raise c message => exact does_any (does_raise message (.handed (List.mem_singleton_self c)))
  | frozenError v => exact does_any (does_frozenError v)
  | checkFrozen v => exact (does_checkFrozen v).attempt_any
  | clearException => exact does_any (does_clearException rfl)
  | objectNew c => exact (does_objectNew c).attempt_any
  | istructNew c word => exact does_istructNew word (.handed (List.mem_singleton_self c))
  | freeze v => exact does_freeze v
  | edit id e => exact does_edit id e rfl
  | arrayNew items => exact does_any (does_arrayNew fun _ member => .handed member)
  | arrayLen a => exact (does_arrayLen a).attempt_any
  | arrayGet a index => exact (does_arrayGet a index).attempt_any
  | arraySet a index v => exact (does_arraySet a index v fun _ member => member).attempt_any
  | arrayPush a v => exact (does_arrayPush a v fun _ member => member).attempt_any
  | arrayItems a => exact (does_arrayValues a).attempt_any
  | stringNew bytes => exact does_any (does_stringNew bytes)
  | stringBytes s => exact (does_stringBytes s).attempt_any
  | stringText s => exact (does_stringText s).attempt_any
  | stringLen s => exact (does_stringLen s).attempt_any
  | stringAppend s tail => exact (does_stringAppend s tail).attempt_any
  | hashNew => exact does_any does_hashNew
  | hashSet h key v =>
      obtain rfl : d = none := may
      exact (does_hashSet h key v rfl fun _ member => .inl member).attempt_any
  | hashGet h key => exact (does_hashGet h key).attempt_any
  | hashDelete h key =>
      obtain rfl : d = h.asObj := may
      exact (does_hashDelete h key rfl).attempt_any
  | hashLen h => exact (does_hashLen h).attempt_any
  | hashEntries h => exact (does_hashEntries h).attempt_any
  | hashKeys h => exact (does_hashKeys h).attempt_any
  | hashValues h => exact (does_hashValues h).attempt_any
  | hashClear h =>
      obtain rfl : d = h.asObj := may
      exact (does_hashClear h rfl).attempt_any
  | rangeNew first last exclusive => exact does_rangeNew exclusive fun _ member => .handed member
  | rangeParts r =>
      have parts : Does { drops := d } (do
          let data ← rangeData r
          return (data.first, data.last, data.exclusive)) m fun _ _ => True :=
        (does_rangeData r).bind fun _ _ _ _ _ => .pure trivial
      exact parts.attempt_any
  | rangeSpan r len trunc => exact (does_rangeSpan r len trunc).attempt_any
  | arenaRestore mark => exact does_any (does_arenaRestore mark)
  | arenaPush id => exact does_any (does_arenaPush (.handed (List.mem_singleton_self id)))
  | collect => exact does_collect rfl rfl
  | setCollecting on => exact does_setCollecting on
  | _ => exact does_any (does_reading _)

end Act

/-! ## Answers of the bridge -/

def BridgeRequest.effect {a : Answer} (r : BridgeRequest a) (h : Handle) (b : Bridge) : Bridge :=
  match r with
  | .unregister index function => { b with tables := (b.tables.unregister index function).2 }
  | .dropTable index => { b with tables := b.tables.drop index }
  | .registerInstance => { b with registry := (b.registry.register h).2 }
  | .unregisterInstance => { b with registry := (b.registry.unregister h).2 }
  | _ => b

namespace Bridge

open Act

variable {α : Type} {g : Grant} {m : Machine} {b : Bridge} {d : Option ObjId}

/-- An action of the machine that the bridge takes no part in. -/
private theorem does_lift {a : Act α} {post : α → Machine → Prop} (does : Does g a m post) :
    Does g ((liftM a : Deed α).run b) m fun x m' => x.2 = b ∧ post x.1 m' :=
  does.bind fun _ _ _ _ ensured => .pure ⟨rfl, ensured⟩

private theorem does_aside {a : Act α} {post : α → Machine → Prop} (does : Does g a m post) :
    Does g ((liftM a : Deed α).run b) m fun x _ => x.2 = b :=
  (does_lift does).mono fun _ _ _ _ ensured => ensured.1

private theorem does_seeing (f : Bridge → Handle → Act α) (post : α → Machine → Prop)
    (does : Does g (f b m.handle) m post) :
    Does g ((seeing f).run b) m fun x m' => x.2 = b ∧ post x.1 m' :=
  (does_lift does).of_run_eq rfl

/-- After an installation the callable is bound in every class that its place names. -/
theorem does_answer_defineCallable (place : Placement) (name : String) (n : Nat) (aspec : Aspec) :
    Does { founds := true } ((answer (.defineCallable place name n aspec)).run b) m fun x m' =>
      x.2 = b ∧ ∀ p, x.1 = .ok p → ∀ c ∈ place.homes m',
        Binds m' c name aspec.isNone (b.formOf m.handle n .bound) n := by
  refine does_seeing
    (fun b h => attempt (defineCallable (b.formOf h n .bound) place name n aspec))
    (fun r m' => ∀ p, r = .ok p → ∀ c ∈ place.homes m',
      Binds m' c name aspec.isNone (b.formOf m.handle n .bound) n) ?_
  refine (does_defineCallable _ place name n aspec).attempt ?_ ?_
  · intro p m' _ _ binds _ impossible
    cases impossible
    exact binds
  · intro e m' _ _ p none
    cases none

/-- A request that only the bridge answers. -/
private theorem does_beside {d : Deed α} {x : α × Bridge} (ran : (d.run b).run.run m = (.ok x, m)) :
    Does g (d.run b) m fun y _ => y = x := .of_run ran .refl fun _ => rfl

theorem does_answer_dropping {a : Answer} (r : BridgeRequest a) (may : r.Drops d) :
    Does { r.grant with drops := d } ((answer r).run b) m fun x _ =>
      x.2 = r.effect m.handle b := by
  cases r with
  | attachEnv proc values =>
      exact does_aside (does_attachEnv proc fun _ member => .handed member).attempt_any
  | envGet proc index => exact does_aside (does_envGet proc index).attempt_any
  | envSet proc index v =>
      exact does_aside (does_envSet index v (fun _ member => member) rfl).attempt_any
  | envLen proc => exact does_aside (does_reading _)
  | raise c message => exact does_aside (does_hostRaise c message)
  | raiseError e => exact does_aside (does_raiseError e)
  | raiseIfLive v => exact does_aside (does_raiseIfLive v).attempt_any
  | defineCallable place name n aspec =>
      exact (does_seeing (fun b h => attempt (defineCallable (b.formOf h n .bound) place name n aspec))
        _ (does_defineCallable _ place name n aspec).attempt_any).mono fun _ _ _ _ done => done.1
  | callableProc n =>
      exact (does_seeing (fun b h => attempt (callableProc (b.formOf h n .free) n)) _
        (does_callableProc _ n).attempt_any).mono fun _ _ _ _ done => done.1
  | ownHandle => exact does_aside (does_reading _)
  | intoGuest t x =>
      obtain rfl : d = none := may
      exact does_aside (does_intoGuest rfl rfl t x (fun _ member => member) m)
  | fromGuest t v => exact (does_aside (does_ofOption (m.fromGuest t v).run)).of_run_eq rfl
  | itemOr a index default => exact does_aside (does_itemOr a index default).attempt_any
  | fetch h key => exact does_aside (does_fetch h key).attempt_any
  | _ => exact (does_beside rfl).mono fun _ _ _ _ same => same ▸ rfl

end Bridge

end GuestVM
