import GuestVM.Bridge.Gateway
import GuestVM.Proofs.Machine.Binding

/-! # Bridged procs

A bridged proc is native, its code is the gateway, and its environment holds one number.  Nothing
but the operations that a grant names changes that as long as the proc is alive: a proc with a value
in its environment gets no other, and only its owner's write reaches the environment. -/
set_option autoImplicit false

namespace GuestVM

/-- The proc `p` reaches callable number `n` of a form, by way of the environment `e`. -/
structure Machine.Bridged (m : Machine) (p e : ObjId) (form : Form) (n : Nat) : Prop where
  proc : ∃ o data, m.object? p = some o ∧ o.body = .proc data ∧
    data.body = .native (gateway form) ∧ data.flags.native = true ∧ data.env = some e
  env : ∃ o isShared, m.object? e = some o ∧ o.body = .env #[.int (Int64.ofNat n)] isShared

namespace Machine.Bridged

variable {m m' : Machine} {p e : ObjId} {form : Form} {n : Nat}

theorem live (bridged : m.Bridged p e form n) : m.Live p := by
  obtain ⟨o, data, present, -⟩ := bridged.proc
  exact .of_object? present

theorem procData? (bridged : m.Bridged p e form n) :
    ∃ data, m.procData? p = some data ∧ data.body = .native (gateway form) ∧
      data.flags.native = true ∧ data.env = some e := by
  obtain ⟨o, data, present, body, facts⟩ := bridged.proc
  exact ⟨data, procData?_eq_some.mpr ⟨o, present, body⟩, facts⟩

theorem procEnv (bridged : m.Bridged p e form n) : m.procEnv p = some e := by
  obtain ⟨data, isProc, -, -, env⟩ := bridged.procData?
  rw [Machine.procEnv, isProc, Option.bind_some, env]

theorem env? (bridged : m.Bridged p e form n) :
    ∃ isShared, m.env? e = some (#[.int (Int64.ofNat n)], isShared) := by
  obtain ⟨o, isShared, present, body⟩ := bridged.env
  exact ⟨isShared, env?_eq_some.mpr ⟨o, present, body⟩⟩

theorem attachedLen (bridged : m.Bridged p e form n) : m.attachedLen (.obj p) = 1 := by
  obtain ⟨isShared, holds⟩ := bridged.env?
  simp [Machine.attachedLen, Value.asObj, bridged.procEnv, Machine.envSize, holds]

theorem of_kept (bridged : m.Bridged p e form n)
    (kept : ∀ x o, m.object? x = some o → m'.object? x = some o) : m'.Bridged p e form n := by
  obtain ⟨⟨o, data, present, facts⟩, ⟨o', isShared, present', body⟩⟩ := bridged
  exact ⟨⟨o, data, kept _ _ present, facts⟩, ⟨o', isShared, kept _ _ present', body⟩⟩

theorem of_modify (bridged : m.Bridged p e form n) {id : ObjId} {f : Object → Object}
    (proc : id = p → ∀ o data, m.object? p = some o → o.body = .proc data →
      data.body = .native (gateway form) → data.flags.native = true → data.env = some e →
      ∃ data', (f o).body = .proc data' ∧ data'.body = .native (gateway form) ∧
        data'.flags.native = true ∧ data'.env = some e)
    (env : id = e → ∀ o values isShared, m.object? e = some o → o.body = .env values isShared →
      (f o).body = .env values isShared) :
    ({ m with heap := m.heap.modify id f } : Machine).Bridged p e form n := by
  obtain ⟨⟨o, data, present, body, code, native, own⟩, ⟨o', isShared, present', body'⟩⟩ := bridged
  constructor
  · by_cases here : p = id
    · obtain ⟨data', after, facts⟩ := proc here.symm o data present body code native own
      exact ⟨f o, data', by rw [object?_modify, if_pos here, present]; rfl, after, facts⟩
    · exact ⟨o, data, by rw [object?_modify, if_neg here, present], body, code, native, own⟩
  · by_cases here : e = id
    · exact ⟨f o', isShared, by rw [object?_modify, if_pos here, present']; rfl,
        env here.symm o' _ isShared present' body'⟩
    · exact ⟨o', isShared, by rw [object?_modify, if_neg here, present'], body'⟩

end Machine.Bridged

structure Grant.Spares (g : Grant) (m : Machine) (p e : ObjId) : Prop where
  rebinds : g.rebinds ≠ some p
  edits : g.edits = none
  /-- No environment is written through a proc that has this one. -/
  owner : ∀ q, g.owner = some q → m.procEnv q ≠ some e

namespace Touch

variable {g : Grant} {m : Machine} {p e : ObjId} {o o' : Object}

theorem keeps_proc (touch : Touch g m p o o') (rebinds : g.rebinds ≠ some p)
    (edits : g.edits = none) {data : ProcData} (body : o.body = .proc data) :
    ∃ data', o'.body = .proc data' ∧ data'.body = data.body ∧
      data'.flags.native = data.flags.native ∧ data'.env = data.env := by
  cases touch with
  | install p' c noArg body' =>
      obtain rfl : p' = data := by
        rw [body] at body'
        exact (Body.proc.inj body').symm
      refine ⟨_, rfl, ?_⟩
      unfold Act.ProcData.installed
      cases noArg <;> cases p'.target <;> exact ⟨rfl, rfl, rfl⟩
  | rebind _ _ _ may => exact absurd may rebinds
  | edit _ may =>
      rw [edits] at may
      cases may
  | freeze => exact ⟨data, body, rfl, rfl, rfl⟩
  | ivar => exact ⟨data, body, rfl, rfl, rfl⟩
  | reclass => exact ⟨data, body, rfl, rfl, rfl⟩
  | _ => simp_all

theorem keeps_env (touch : Touch g m e o o') (spares : g.Spares m p e) {values : Array Value}
    {isShared : Bool} (body : o.body = .env values isShared) : o'.body = .env values isShared := by
  cases touch with
  | edit _ may =>
      rw [spares.edits] at may
      cases may
  | write q _ _ _ _ _ may owned => exact absurd owned (spares.owner q may)
  | freeze => exact body
  | ivar => exact body
  | reclass => exact body
  | _ => simp_all

end Touch

namespace Change

variable {g : Grant} {m m' : Machine} {p e : ObjId} {form : Form} {n : Nat}

theorem bridged (change : Change g m m') (tidy : m.heap.Tidy) (spares : g.Spares m p e)
    (live : m'.Live p) (bridged : m.Bridged p e form n) : m'.Bridged p e form n := by
  cases change with
  | alloc o =>
      exact bridged.of_kept fun x o' present => Machine.object?_withNew_of_live tidy o present
  | touch id o o' present how =>
      refine bridged.of_modify ?_ ?_
      · intro same o'' data present' body code native own
        subst same
        rw [present] at present'
        cases present'
        obtain ⟨data', after, sameBody, sameFlag, sameEnv⟩ :=
          how.keeps_proc spares.rebinds spares.edits body
        exact ⟨data', after, sameBody.trans code, sameFlag.trans native, sameEnv.trans own⟩
      · intro same o'' values isShared present' body
        subst same
        rw [present] at present'
        cases present'
        exact how.keeps_env spares body
  | attach id o data values present body bare =>
      have still : (m.withNew (.env values)).Bridged p e form n :=
        bridged.of_kept fun x o' present => Machine.object?_withNew_of_live tidy _ present
      refine still.of_modify ?_ ?_
      · intro same
        subst same
        rw [bridged.attachedLen] at bare
        cases bare
      · intro same
        subst same
        obtain ⟨o', isShared, present', body'⟩ := bridged.env
        rw [present, Option.some.injEq] at present'
        rw [present', body'] at body
        cases body
  | collect =>
      obtain ⟨o, data, present, body, code, native, own⟩ := bridged.proc
      obtain ⟨o', isShared, present', body'⟩ := bridged.env
      obtain ⟨after, survived⟩ := live.object?
      have same : m.object? p = some after := Heap.get?_of_get?_collect survived
      rw [present] at same
      cases same
      have named : e ∈ o.references := by
        apply Object.mem_references_of_body
        simp [body, Body.references, own]
      exact ⟨⟨o, data, survived, body, code, native, own⟩,
        ⟨o', isShared, Heap.get?_collect_of_reference tidy survived named present', body'⟩⟩
  | _ => exact bridged.of_kept fun x o present => present

end Change

theorem Grant.spares_founding (founds : Bool) (drops : Option ObjId) (m : Machine) (p e : ObjId) :
    ({ founds, drops } : Grant).Spares m p e :=
  ⟨nofun, rfl, fun _ => nofun⟩

theorem Evolution.bridged {m m' : Machine} {p e : ObjId} {form : Form} {n : Nat} {founds : Bool}
    {drops : Option ObjId} (evolution : Evolution { founds, drops } m m') (tidy : m.heap.Tidy)
    (bridged : m.Bridged p e form n) : m'.Bridged p e form n := by
  induction evolution with
  | refl => exact bridged
  | tail before change ih =>
      have middle := Evolution.tidy before tidy
      rcases change.live middle ih.live with live | sweeping
      · exact change.bridged middle (Grant.spares_founding founds drops _ p e) live ih
      · cases sweeping

/-! ## Making bridged procs -/

def Placement.homes (place : Placement) (m : Machine) : List ObjId :=
  match place with
  | .method c => [c]
  | .classMethod c => [m.classOf (.obj c)]
  | .singletonMethod v => [m.classOf v]
  | .moduleFunction c => [m.classOf (.obj c), c]

namespace Act

variable {α : Type} {g : Grant} {m : Machine} {d : Option ObjId}

private theorem object?_pair (tidy : m.heap.Tidy) (o p after : Object) :
    let m' := ((m.withNew o).withNew p).put (m.newId o) after
    m'.object? (m.newId o) = some after ∧ m'.object? ((m.withNew o).newId p) = some p ∧
      ∀ x q, m.object? x = some q → m'.object? x = some q := by
  have dead := Machine.newId_dead tidy o
  have tidy₁ : (m.withNew o).heap.Tidy := Heap.Tidy.alloc tidy o
  have dead₁ := Machine.newId_dead tidy₁ p
  have first : (m.withNew o).object? (m.newId o) = some o := by
    rw [Machine.object?_withNew tidy, if_pos rfl]
  have apart : m.newId o ≠ (m.withNew o).newId p := by
    intro same
    rw [← same, first] at dead₁
    cases dead₁
  refine ⟨?_, ?_, ?_⟩
  · exact Machine.object?_put_self (by rw [Machine.object?_withNew tidy₁, if_neg apart, first])
  · rw [Machine.object?_put_of_ne apart.symm, Machine.object?_withNew tidy₁, if_pos rfl]
  · intro x q present
    have old : (m.withNew o).object? x = some q := by
      rw [Machine.object?_withNew tidy, if_neg, present]
      intro same
      subst same
      rw [dead] at present
      cases present
    rw [Machine.object?_put_of_ne, Machine.object?_withNew tidy₁, if_neg, old]
    · intro same
      subst same
      rw [dead₁] at old
      cases old
    · intro same
      subst same
      rw [dead] at present
      cases present

theorem does_newBridged (form : Form) (n : Nat) :
    Does g (newBridged form n) m fun p m' =>
      m.object? p = none ∧ (∃ e, m'.Bridged p e form n) ∧ m'.symbols = m.symbols ∧
        ∀ x o, m.object? x = some o → m'.object? x = some o := by
  refine .of_tidy fun tidy => (does_procNew _ _).bind ?_
  intro _ _ _ _ done
  obtain ⟨rfl, rfl⟩ := done
  refine (does_attachEnv _ ?_).bind ?_
  · intro x none
    cases none
  intro _ _ _ _ done
  obtain ⟨id, o, data, same, live, body, rfl⟩ := done
  cases same
  rw [Machine.object?_withNew tidy, if_pos rfl] at live
  cases live
  cases body
  obtain ⟨isProc, isEnv, kept⟩ := object?_pair tidy _ _ _
  refine .pure ⟨Machine.newId_dead tidy _, ⟨_, ⟨_, _, isProc, rfl, ?_, ?_, ?_⟩, ⟨_, false, isEnv, ?_⟩⟩,
    rfl, kept⟩
  · rfl
  · rfl
  · rfl
  · rfl

/-- A class binds a name to a bridged proc for callable number `n`. -/
def Binds (m : Machine) (c : ObjId) (name : String) (noArg : Bool) (form : Form) (n : Nat) : Prop :=
  ∃ p e mid, m.symbols.check name = some mid ∧ m.ownMethod? c mid = some ⟨p, noArg⟩ ∧
    m.Bridged p e form n

/-- What an installation leaves behind: the name is bound in `c`, and all other methods and objects, the
classes and the symbols are as they were. -/
structure Installs (before after : Machine) (c : ObjId) (name : String) (noArg : Bool)
    (form : Form) (n : Nat) : Prop where
  binds : Binds after c name noArg form n
  /-- The proc that the name is bound to is new. -/
  fresh : ∀ mid method, after.symbols.check name = some mid →
    after.ownMethod? c mid = some method → ¬ before.Live method.proc
  rest : ∀ mid, after.symbols.check name ≠ some mid → before.Live c →
    after.ownMethod? c mid = before.ownMethod? c mid
  objects : ∀ x o, x ≠ c → before.object? x = some o → after.object? x = some o
  superclasses : ∀ x, before.Live x → after.superclass? x = before.superclass? x
  classes : ∀ id o, before.object? id = some o → after.classOf (.obj id) = o.cls
  symbols : ∀ mid, before.symbols.check name = some mid → after.symbols.check name = some mid

theorem Installs.ownMethod?_of_ne {m' : Machine} {c x : ObjId} {name : String} {noArg : Bool}
    {form : Form} {n : Nat} (installs : Installs m m' c name noArg form n) (apart : x ≠ c)
    (live : m.Live x) (mid : Sym) : m'.ownMethod? x mid = m.ownMethod? x mid := by
  obtain ⟨o, present⟩ := live.object?
  rw [Machine.ownMethod?, Machine.ownMethod?, Machine.classData?_eq_bind, Machine.classData?_eq_bind,
    present, installs.objects x o apart present]

/-- Installing enters nothing in a hash, so it can be done whichever hash may lose entries. -/
theorem does_defineBridged_dropping (form : Form) (c : ObjId) (name : String) (n : Nat)
    (aspec : Aspec) (founds : Bool) :
    Does { founds, drops := d } (defineBridged form c name n aspec) m fun _ m' =>
      Installs m m' c name aspec.isNone form n := by
  refine does_inArenaScope ?_ fun _ m' _ _ (done : Installs m m' c name aspec.isNone form n) => ?_
  · apply (does_newBridged form n).bind
    intro p m₁ _ tidy₁ done
    obtain ⟨dead, ⟨e, bridged⟩, symbols, kept⟩ := done
    apply (does_intern name).bind
    intro mid _ _ _ done
    obtain ⟨same, rfl⟩ := done
    refine (does_defineMethod c mid ?_).bind ?_
    · exact .alive bridged.live
    intro _ m₂ evolution _ takes
    have still := evolution.bridged tidy₁ (bridged.of_kept fun _ _ present => present)
    have found : m₂.symbols.check name = some mid := by
      rw [takes.symbols, same]
      exact SymbolTable.check_intern _ name
    have classes : ∀ x, m.Live x → m₁.classData? x = m.classData? x := by
      intro x live
      obtain ⟨o, present⟩ := live.object?
      rw [Machine.classData?_eq_bind, Machine.classData?_eq_bind, present, kept x o present]
    refine .pure ⟨⟨p, e, mid, found, takes.own, still⟩, ?_, ?_, ?_, ?_, ?_, ?_⟩
    · intro other method check row live
      cases found.symm.trans check
      cases takes.own.symm.trans row
      rw [Machine.Live, dead] at live
      cases live
    · intro other apart live
      rw [takes.rest other fun same => apart (same ▸ found)]
      exact congrArg (Option.bind · _) (classes c live)
    · intro x o apart present
      refine (takes.objects x apart ?_).trans (kept x o present)
      rintro rfl
      rw [dead] at present
      cases present
    · intro x live
      rw [takes.superclasses]
      exact congrArg (Option.bind · _) (classes x live)
    · intro id o present
      rw [takes.classes]
      show ((m₁.object? id).map (·.cls)).getD Builtin.object.id = o.cls
      rw [kept id o present]
      rfl
    · intro other check
      rw [takes.symbols, symbols, SymbolTable.intern_of_check check, check]
  · obtain ⟨⟨p, e, mid, found, row, bridged⟩, fresh, rest, objects, superclasses, classes, symbols⟩ :=
      done
    exact ⟨⟨p, e, mid, found, row, ⟨bridged.proc, bridged.env⟩⟩, fresh, rest, objects, superclasses,
      classes, symbols⟩

theorem does_defineBridged (form : Form) (c : ObjId) (name : String) (n : Nat) (aspec : Aspec)
    (founds : Bool) :
    Does { founds } (defineBridged form c name n aspec) m fun _ m' =>
      Installs m m' c name aspec.isNone form n :=
  does_defineBridged_dropping form c name n aspec founds

theorem does_defineBridgedOn (form : Form) (v : Value) (name : String) (n : Nat) (aspec : Aspec) :
    Does { founds := true, drops := d } (defineBridgedOn form v name n aspec) m fun _ m' =>
      Binds m' (m'.classOf v) name aspec.isNone form n ∧ ∀ id, v = .obj id → m'.Live id := by
  apply (does_singletonClass rfl rfl v).bind
  intro s m₁ _ tidy done
  obtain ⟨-, id, o, rfl, present, rfl⟩ := done
  apply (does_defineBridged_dropping form o.cls name n aspec true).mono
  intro p m' evolution _ done
  rw [done.classes id o present]
  refine ⟨done.binds, ?_⟩
  intro _ impossible
  cases impossible
  exact evolution.live tidy rfl (.of_object? present)

/-- In every class that the place names, the callable is bound. -/
theorem does_defineCallable (form : Form) (place : Placement) (name : String) (n : Nat)
    (aspec : Aspec) :
    Does { founds := true, drops := d } (defineCallable form place name n aspec) m fun _ m' =>
      ∀ c ∈ place.homes m', Binds m' c name aspec.isNone form n := by
  cases place with
  | method c =>
      refine (does_defineBridged_dropping form c name n aspec true).mono fun p m' _ _ done => ?_
      simpa [Placement.homes] using done.binds
  | classMethod c =>
      refine (does_defineBridgedOn form _ name n aspec).mono fun p m' _ _ done => ?_
      simpa [Placement.homes] using done.1
  | singletonMethod v =>
      refine (does_defineBridgedOn form v name n aspec).mono fun p m' _ _ done => ?_
      simpa [Placement.homes] using done.1
  | moduleFunction c =>
      refine (does_defineBridgedOn form _ name n aspec).bind ?_
      intro _ m₁ _ tidy₁ done
      obtain ⟨⟨p, e, mid, found, row, bridged⟩, live⟩ := done
      refine (does_defineBridged_dropping form c name n aspec true).mono ?_
      intro p' m' evolution _ done
      obtain ⟨o, present⟩ := (live c rfl).object?
      have still : m'.classOf (.obj c) = m₁.classOf (.obj c) := by
        rw [done.classes c o present]
        simp [Machine.classOf, present]
      have onSingleton : Binds m' (m₁.classOf (.obj c)) name aspec.isNone form n := by
        by_cases same : m₁.classOf (.obj c) = c
        · rw [same]
          exact done.binds
        · have alive : m₁.Live (m₁.classOf (.obj c)) := by
            obtain ⟨data, isClass, -⟩ := Option.bind_eq_some_iff.mp row
            exact Machine.live_of_classData? isClass
          refine ⟨p, e, mid, done.symbols mid found, ?_, evolution.bridged tidy₁ bridged⟩
          rw [done.ownMethod?_of_ne same alive mid, row]
      intro home member
      simp only [Placement.homes, still, List.mem_cons, List.not_mem_nil, or_false] at member
      rcases member with rfl | rfl
      · exact onSingleton
      · exact done.binds

theorem does_callableProc (form : Form) (n : Nat) :
    Does g (callableProc form n) m fun _ _ => True := by
  have made : Does g (inArenaScope (newBridged form n)) m fun p m' => m'.Live p := by
    refine does_inArenaScope (does_newBridged form n) ?_
    intro p m' _ _ done
    obtain ⟨-, ⟨e, bridged⟩, -⟩ := done
    exact bridged.live
  refine made.bind fun p m' _ _ live => ?_
  exact (does_arenaPush (.alive live)).bind fun _ _ _ _ _ => .pure trivial

/-! ## Admitting a call -/

theorem does_callableName (n : Nat) : Does g (callableName n) m fun _ m' => m' = m := by
  apply Does.get_bind
  split
  · exact .pure rfl
  · exact .pure rfl

theorem does_missingCallable (n : Nat) : Does g (missingCallable n) m fun _ _ => True := by
  refine (does_callableName n).bind fun _ _ _ _ _ => ?_
  exact (does_hostRaise _ _).mono fun _ _ _ _ _ => trivial

theorem does_wrongForm (n : Nat) (form : Form) : Does g (wrongForm n form) m fun _ _ => True := by
  refine (does_callableName n).bind fun _ _ _ _ _ => ?_
  exact (does_hostRaise _ _).mono fun _ _ _ _ _ => trivial

theorem does_checkArity (aspec : Aspec) (args : Value) :
    Does g (checkArity aspec args) m fun _ _ => True := by
  unfold checkArity
  split
  · exact .pure trivial
  refine (does_arrayLen args).attempt_any.bind fun found _ _ _ _ => ?_
  cases found with
  | error e => exact .pure trivial
  | ok argc =>
      dsimp only
      split
      · exact .pure trivial
      · exact (does_hostRaise _ _).bind fun _ _ _ _ _ => .pure trivial

theorem does_resolveCall (slot : Option CallableSlot) (form : Form) (n : Nat) (args : Value) :
    Does g (resolveCall slot form n args) m fun x _ =>
      ∀ c, x = .ok c → ∃ s, slot = some s ∧ c = s.callable := by
  unfold resolveCall
  cases slot with
  | none => exact (does_missingCallable n).bind fun _ _ _ _ _ => .pure nofun
  | some s =>
      have admitted : ∀ c, (.ok s.callable : Except Value Callable) = .ok c →
          ∃ s', some s = some s' ∧ c = s'.callable := by
        intro c impossible
        cases impossible
        exact ⟨s, rfl, rfl⟩
      dsimp only
      split
      · exact (does_wrongForm n form).bind fun _ _ _ _ _ => .pure nofun
      · cases form with
        | bound => exact .pure admitted
        | free =>
            refine (does_checkArity s.aspec args).bind fun found _ _ _ _ => ?_
            cases found with
            | none => exact .pure admitted
            | some v => exact .pure nofun

end Act

end GuestVM
