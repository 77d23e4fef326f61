import GuestVM.Proofs.Bridge.Rejecting
import GuestVM.Proofs.HostErrors
import GuestVM.Proofs.Machine.Interposing
import GuestVM.Proofs.Machine.Ranking
import GuestVM.Proofs.SuperclassWalks

/-! # Module functions

A module function is two methods, one of the singleton class and one of the module itself.  They are
installed one after the other, and each installation looks at the flag of its own class.  When both
are installed, both lookups lead to the callable; when the singleton class refuses, nothing is found
that was not found before; but when only the module refuses, the singleton class has its method
already. -/
set_option autoImplicit false

namespace GuestVM

/-! ## What is left by installations -/

theorem SymbolTable.check_intern_of_check {t : SymbolTable} {name other : String} {s : Sym}
    (found : t.check name = some s) : (t.intern other).2.check name = some s := by
  unfold intern
  split
  · exact found
  · obtain ⟨⟨names⟩⟩ := t
    simp only [check, Option.map_eq_some_iff, List.push_toArray, List.idxOf?_toArray] at found ⊢
    obtain ⟨k, at_k, rfl⟩ := found
    refine ⟨k, ?_, rfl⟩
    rw [List.idxOf?] at at_k ⊢
    rw [List.findIdx?_append, at_k]
    rfl

theorem Evolution.check {g : Grant} {m m' : Machine} {name : String} {s : Sym}
    (evolution : Evolution g m m') (found : m.symbols.check name = some s) :
    m'.symbols.check name = some s := by
  induction evolution with
  | refl => exact found
  | tail _ change ih =>
      cases change with
      | intern other => exact SymbolTable.check_intern_of_check ih
      | _ => exact ih

namespace Machine

/-- What there is in `m` is the same in `m'`. -/
def Kept (m m' : Machine) : Prop := ∀ x o, m.object? x = some o → m'.object? x = some o

/-- Looked up from the class `c`, a name leads to callable number `n`. -/
def Leads (m : Machine) (c : ObjId) (name : String) (noArg : Bool) (form : Form) (n : Nat) : Prop :=
  ∃ p e mid, m.symbols.check name = some mid ∧ m.findMethod c mid = some ⟨p, noArg⟩ ∧
    m.Bridged p e form n

variable {m m' : Machine} {c s : ObjId} {mid : Sym} {name : String} {noArg : Bool} {form : Form}
  {n : Nat}

theorem findMethod_of_own {method : Method} (own : m.ownMethod? c mid = some method) :
    m.findMethod c mid = some method :=
  findMethod?_eq_some (Ascent.climb (.found own))

theorem Leads.of_binds (binds : Act.Binds m c name noArg form n) : m.Leads c name noArg form n := by
  obtain ⟨p, e, mid, found, row, bridged⟩ := binds
  exact ⟨p, e, mid, found, findMethod_of_own row, bridged⟩

theorem Kept.reclasses (kept : m.Kept m') : m.Reclasses m' :=
  fun x o present => ⟨o.cls, kept x o present⟩

theorem Kept.classOf_eq (kept : m.Kept m') (live : m.Live c) :
    m'.classOf (.obj c) = m.classOf (.obj c) := by
  obtain ⟨o, present⟩ := live.object?
  rw [classOf_of_object? present, classOf_of_object? (kept c o present)]

end Machine

namespace Act.Installs

variable {m m' : Machine} {c d : ObjId} {mid : Sym} {name : String} {noArg : Bool} {form : Form}
  {n : Nat}

/-- Classes that do not descend from the one with the new method find what they found. -/
theorem findMethod_of_not_mem (installs : Installs m m' c name noArg form n) (closed : m.Closed)
    (rooted : m.Rooted) (rooted' : m'.Rooted) (live : m.Live d) (apart : c ∉ m.lineage d)
    (mid : Sym) : m'.findMethod d mid = m.findMethod d mid := by
  refine rooted.findMethod_transfer rooted' (fun d => m.Live d ∧ c ∉ m.lineage d) ?_ ?_ ?_
    ⟨live, apart⟩
  · rintro d p ⟨alive, outside⟩ above
    refine ⟨Machine.live_superclass closed above, fun inside => outside ?_⟩
    rw [Machine.lineage_eq closed rooted alive, above]
    exact List.mem_cons_of_mem _ inside
  · exact fun d ⟨alive, _⟩ => installs.superclasses d alive
  · rintro d ⟨alive, outside⟩
    refine installs.ownMethod?_of_ne ?_ alive mid
    rintro rfl
    exact outside (Machine.mem_lineage_self d)

/-- By another name everything is found as it was. -/
theorem findMethod_of_ne (installs : Installs m m' c name noArg form n) (closed : m.Closed)
    (rooted : m.Rooted) (rooted' : m'.Rooted) (live : m.Live d)
    (apart : m'.symbols.check name ≠ some mid) : m'.findMethod d mid = m.findMethod d mid := by
  refine rooted.findMethod_transfer rooted' m.Live ?_ ?_ ?_ live
  · exact fun _ _ _ above => Machine.live_superclass closed above
  · exact installs.superclasses
  · intro d alive
    by_cases same : d = c
    · subst same
      exact installs.rest mid apart alive
    · exact installs.ownMethod?_of_ne same alive mid

/-- By its own name another method is found than before. -/
theorem findMethod_ne (installs : Installs m m' c name noArg form n) (closed : m.Closed)
    (named : m'.symbols.check name = some mid) :
    m'.findMethod c mid ≠ m.findMethod c mid := by
  obtain ⟨p, e, mid', found, row, -⟩ := installs.binds
  cases found.symm.trans named
  rw [Machine.findMethod_of_own row]
  intro same
  exact installs.fresh mid _ found row (closed p (Machine.holds_of_findMethod same.symm))

end Act.Installs

/-! ## The first installation -/

namespace Machine

/-- The class `c` has a singleton class, and that is frozen. -/
def OwnFrozen (m : Machine) (c : ObjId) : Prop :=
  Act.isSingletonOf m (m.classOf (.obj c)) (.obj c) = true ∧
    m.isFrozen (.obj (m.classOf (.obj c))) = true

/-- The singleton class of `c` was asked for and is `s`, and nothing else is different, unless `c` had
lost its own. -/
structure Singled (m m' : Machine) (c s : ObjId) : Prop where
  ran : (Act.singletonClass (.obj c)).run.run m = (.ok s, m')
  own : Act.isSingletonOf m' s (.obj c) = true
  evolution : Evolution { founds := true } m m'
  classOf : m'.classOf (.obj c) = s
  same : m.Reclasses m'
  thawed : ¬ m.OwnFrozen c → m'.isFrozen (.obj s) = false
  alike : ¬ m.Bereft c → m.AnswersAlike m'

/-- The singleton class of `c` has the method, and it is found from there and not from `c`.  Nothing
else is found than before, unless `c` had lost its singleton class and has got another. -/
structure HalfDone (m m' : Machine) (c : ObjId) (name : String) (noArg : Bool) (form : Form)
    (n : Nat) : Prop where
  typed : m'.typeOf (.obj c) = m.typeOf (.obj c)
  flag : m'.isFrozen (.obj c) = m.isFrozen (.obj c)
  module : ∀ mid, m'.findMethod c mid = m.findMethod c mid
  leads : m'.Leads (m'.classOf (.obj c)) name noArg form n
  singleton : ¬ m.Bereft c → ∀ mid,
    m'.findMethod (m'.classOf (.obj c)) mid = m.findMethod (m.classOf (.obj c)) mid ↔
      m'.symbols.check name ≠ some mid

variable {m m' : Machine} {c s : ObjId} {name : String} {form : Form} {n : Nat} {aspec : Aspec}

theorem isClassLike_of_isSingletonOf (own : Act.isSingletonOf m s (.obj c) = true) :
    (m.typeOf (.obj s)).isClassLike = true := by
  obtain ⟨o, data, present, body, -⟩ := object?_of_isSingletonOf own
  rw [typeOf_obj present]
  exact Object.isClassLike_of_body body

theorem Healthy.singled (healthy : m.Healthy) (established : m.Established) (live : m.Live c) :
    ∃ s m', m.Singled m' c s := by
  rcases Act.run_singletonClass_live established (.of_closed healthy.closed) live with
    ⟨s, m', ran, own, evolution⟩ | ⟨unhealthy, -⟩
  swap
  · exact absurd healthy unhealthy
  have obtains := Act.obtains_of_singletonClass healthy.tidy ran
  have classOf := obtains.classOf_eq healthy.tidy
  refine ⟨s, m', ran, own, evolution, classOf, obtains.reclasses healthy.tidy, fun thawed => ?_,
    fun proper => answersAlike_singletonClass healthy.tidy healthy.closed healthy.rooted
      (evolution.healthy nofun healthy).rooted proper ran⟩
  rcases obtains.kept_or_thawed healthy.tidy with ⟨rfl, there⟩ | new
  · subst classOf
    simpa [OwnFrozen, there] using thawed
  · exact new

end Machine

namespace Act

variable {m m' : Machine} {c : ObjId} {methods : SymMap Method} {consts : SymMap Value}

/-- A class that is not frozen takes a bridged method. -/
theorem run_defineBridged_of_thawed (tidy : m.heap.Tidy)
    (typed : (m.typeOf (.obj c)).isClassLike = true) (thawed : m.isFrozen (.obj c) = false)
    (form : Form) (name : String) (n : Nat) (aspec : Aspec) :
    ∃ p m', (defineBridged form c name n aspec).run.run m = (.ok p, m') ∧ Evolution {} m m' ∧
      Installs m m' c name aspec.isNone form n := by
  obtain ⟨o, present, data, body⟩ := Machine.class_of_typeOf typed
  have flag : o.frozen = false := by simpa [Machine.isFrozen, present] using thawed
  obtain ⟨p, m', ran⟩ := run_defineBridged_thawed tidy present body flag form name n aspec
  have does := does_defineBridged (m := m) form c name n aspec false tidy
  rw [ran] at does
  exact ⟨p, m', ran, does⟩

/-- A frozen class takes none, and all there is stays. -/
theorem run_defineBridged_of_frozen (healthy : m.Healthy) (established : m.Established)
    (frozen : m.Sealed c methods consts) (form : Form) (name : String) (n : Nat) (aspec : Aspec) :
    ∃ e m', (defineBridged form c name n aspec).run.run m = (.error (.raised e), m') ∧
      m'.realClassOf e.value = Builtin.frozenError.id ∧ Evolution {} m m' ∧ m.Kept m' := by
  rcases rejects_defineBridged established frozen form name n aspec with
    ⟨e, m', ran, isFrozenError⟩ | ⟨unhealthy, -⟩
  swap
  · exact absurd healthy unhealthy
  have does := does_defineBridged (m := m) form c name n aspec false healthy.tidy
  rw [ran] at does
  refine ⟨e, m', ran, isFrozenError, does.1, ?_⟩
  -- The proc is made in any case, and what raises then is the last step, the method's definition.
  obtain ⟨p, made, first, evolution, kept⟩ := run_newBridged healthy.tidy form n
  have tidy : (made.interning [name]).heap.Tidy := evolution.tidy healthy.tidy
  have spares := spares_defineMethod c (made.symbols.intern name).1 ⟨p, aspec.isNone⟩ tidy
  rw [defineBridged, run_inArenaScope, run_ok_bind first, run_ok_bind (run_intern name),
    run_bind] at ran
  rcases defined : (defineMethod c (made.symbols.intern name).1 ⟨p, aspec.isNone⟩).run.run
    (made.interning [name]) with ⟨(e' | _) | _, last⟩
  · rw [defined] at ran spares
    obtain ⟨id, unharmed⟩ := Machine.Spared.unharmed spares tidy
    cases ran
    intro x o present
    have there : (made.interning [name]).object? x = some o := kept x o present
    refine (unharmed.objects x ?_).trans there
    rintro rfl
    rw [unharmed.dead] at there
    cases there
  · rw [defined] at ran
    cases ran
  · rw [defined] at ran
    cases ran

/-- A singleton class that is not frozen takes the method, and no other lookup notices. -/
theorem run_defineBridgedOn_of_thawed (healthy : m.Healthy) (established : m.Established)
    (ranked : m.Ranked) (live : m.Live c) (thawed : ¬ m.OwnFrozen c) (form : Form)
    (name : String) (n : Nat) (aspec : Aspec) :
    ∃ p m', (defineBridgedOn form (.obj c) name n aspec).run.run m = (.ok p, m') ∧
      Evolution { founds := true } m m' ∧ m.HalfDone m' c name aspec.isNone form n := by
  obtain ⟨s, made, singled⟩ := healthy.singled established live
  have sound := singled.evolution.healthy nofun healthy
  have further := (singled.evolution.ranked healthy.tidy nofun healthy.closed ranked).2
  -- What gets into the tables of the singleton class is not found from the class itself.
  have apart : s ∉ made.lineage c := further.not_mem_lineage singled.own
  have alive : made.Live c := singled.evolution.live healthy.tidy rfl live
  obtain ⟨p, m', defined, -, installs⟩ := run_defineBridged_of_thawed sound.tidy
    (Machine.isClassLike_of_isSingletonOf singled.own) (singled.thawed thawed) form name n aspec
  have does := does_defineBridged (m := made) form s name n aspec true sound.tidy
  rw [defined] at does
  have whole : Evolution { founds := true } m m' := singled.evolution.trans does.1
  have rooted := (whole.healthy nofun healthy).rooted
  obtain ⟨o, present⟩ := alive.object?
  have other : c ≠ s := by
    rintro rfl
    exact apart (Machine.mem_lineage_self c)
  have still := installs.objects c o other present
  have classOf : m'.classOf (.obj c) = s := by
    rw [installs.classes c o present, ← Machine.classOf_of_object? present, singled.classOf]
  refine ⟨p, m', by rw [defineBridgedOn, run_ok_bind singled.ran, defined], whole, ?_⟩
  constructor
  case typed =>
    rw [← singled.same.typeOf_eq live, Machine.typeOf_obj still, Machine.typeOf_obj present]
  case flag =>
    rw [← singled.same.isFrozen_eq live]
    simp [Machine.isFrozen, still, present]
  case module =>
    intro mid
    rw [← singled.same.findMethod_eq healthy.closed healthy.rooted sound.rooted live mid]
    exact installs.findMethod_of_not_mem sound.closed sound.rooted rooted alive apart mid
  case leads => exact classOf.symm ▸ .of_binds installs.binds
  case singleton =>
    intro proper mid
    rw [classOf, ← (singled.alike proper).methods (.obj c) mid live.isLive, singled.classOf]
    refine ⟨fun same named => installs.findMethod_ne sound.closed named same, fun unnamed => ?_⟩
    exact installs.findMethod_of_ne sound.closed sound.rooted rooted
      (Machine.live_of_isSingletonOf singled.own) unnamed

end Act

/-! ## Both installations -/

namespace Machine

variable {m m' : Machine} {c : ObjId} {name : String} {noArg : Bool} {form : Form} {n : Nat}
  {aspec : Aspec}

/-- What a refused installation leaves is half done still. -/
theorem HalfDone.of_kept {last : Machine} (half : m.HalfDone m' c name noArg form n)
    (kept : m'.Kept last) (evolution : Evolution {} m' last) (healthy : m'.Healthy)
    (live : m'.Live c) : m.HalfDone last c name noArg form n := by
  have rooted := (evolution.healthy nofun healthy).rooted
  have same := kept.reclasses
  have own : m'.Live (m'.classOf (.obj c)) := live.isLive.classOf healthy.closed
  have classOf := kept.classOf_eq live
  have found := fun {d} (alive : m'.Live d) mid =>
    same.findMethod_eq healthy.closed healthy.rooted rooted alive mid
  obtain ⟨p, e, mid, named, row, bridged⟩ := half.leads
  have check := evolution.check named
  constructor
  case typed => exact (same.typeOf_eq live).trans half.typed
  case flag => exact (same.isFrozen_eq live).trans half.flag
  case module => exact fun mid => (found live mid).trans (half.module mid)
  case leads =>
    refine ⟨p, e, mid, check, ?_, bridged.of_kept kept⟩
    rw [classOf, found own, row]
  case singleton =>
    intro proper other
    rw [classOf, found own, half.singleton proper, named, check]

/-- The action raises a FrozenError, and leaves the machine `m'`. -/
def RaisesFrozen {α : Type} (m : Machine) (a : Act α) (m' : Machine) : Prop :=
  ∃ e, a.run.run m = (.error (.raised e), m') ∧ m'.realClassOf e.value = Builtin.frozenError.id

/-- What becomes of a module function, by the flags of the class `c` and of its singleton class. -/
structure InstallsTwice (m : Machine) (c : ObjId) (form : Form) (name : String) (n : Nat)
    (aspec : Aspec) : Prop where
  thawed : m.isFrozen (.obj c) = false → ¬ m.OwnFrozen c →
    ∃ p m', (Act.defineCallable form (.moduleFunction c) name n aspec).run.run m = (.ok p, m')
  refused : m.OwnFrozen c →
    ∃ m', m.RaisesFrozen (Act.defineCallable form (.moduleFunction c) name n aspec) m' ∧
      (∀ mid, m'.findMethod c mid = m.findMethod c mid) ∧
      ∀ mid, m'.findMethod (m'.classOf (.obj c)) mid = m.findMethod (m.classOf (.obj c)) mid
  halfway : m.isFrozen (.obj c) = true → ¬ m.OwnFrozen c →
    ∃ m', m.RaisesFrozen (Act.defineCallable form (.moduleFunction c) name n aspec) m' ∧
      m.HalfDone m' c name aspec.isNone form n

theorem Healthy.installsTwice (healthy : m.Healthy) (established : m.Established) (ranked : m.Ranked)
    (typed : (m.typeOf (.obj c)).isClassLike = true) (form : Form) (name : String) (n : Nat)
    (aspec : Aspec) : m.InstallsTwice c form name n aspec := by
  obtain ⟨o, present, -⟩ := class_of_typeOf typed
  have live : m.Live c := .of_object? present
  have first := fun thawed => Act.run_defineBridgedOn_of_thawed healthy established ranked live
    thawed form name n aspec
  constructor
  case thawed =>
    intro flag thawed
    obtain ⟨p, made, ran, evolution, half⟩ := first thawed
    obtain ⟨q, m', second, -⟩ := Act.run_defineBridged_of_thawed (evolution.tidy healthy.tidy)
      (half.typed.symm ▸ typed) (half.flag.trans flag) form name n aspec
    refine ⟨q, m', ?_⟩
    unfold Act.defineCallable
    rw [Act.run_ok_bind ran, second]
  case refused =>
    rintro ⟨own, flag⟩
    rw [classOf_of_object? present] at own flag
    obtain ⟨methods, consts, frozen⟩ := sealed_of_isFrozen (isClassLike_of_isSingletonOf own) flag
    obtain ⟨e, m', ran, isFrozenError, evolution, kept⟩ :=
      Act.run_defineBridged_of_frozen healthy established frozen form name n aspec
    have there : (Act.singletonClass (.obj c)).run.run m = (.ok o.cls, m) :=
      Act.run_singletonWithin_of_own present own _
    have rooted := (evolution.healthy (List.forall_mem_nil _) healthy).rooted
    refine ⟨m', ⟨e, ?_, isFrozenError⟩, ?_, ?_⟩
    · unfold Act.defineCallable
      rw [Act.run_bind, Act.defineBridgedOn, Act.run_ok_bind there, ran]
    · exact kept.reclasses.findMethod_eq healthy.closed healthy.rooted rooted live
    · intro mid
      rw [kept.classOf_eq live, classOf_of_object? present]
      exact kept.reclasses.findMethod_eq healthy.closed healthy.rooted rooted frozen.live mid
  case halfway =>
    intro flag thawed
    obtain ⟨p, made, ran, evolution, half⟩ := first thawed
    have sound := evolution.healthy (List.forall_mem_nil _) healthy
    obtain ⟨methods, consts, frozen⟩ := sealed_of_isFrozen (half.typed.symm ▸ typed)
      (half.flag.trans flag)
    obtain ⟨e, m', second, isFrozenError, further, kept⟩ := Act.run_defineBridged_of_frozen sound
      (evolution.established established) frozen form name n aspec
    refine ⟨m', ⟨e, ?_, isFrozenError⟩, half.of_kept kept further sound frozen.live⟩
    unfold Act.defineCallable
    rw [Act.run_ok_bind ran, second]

end Machine

namespace Situation

attribute [local irreducible] Machine.opened

variable {now : Situation} {name : String} {i : Instance} {c : ObjId}

theorem Run.ranked (run : Run Careful {} now) (present : now.world.instance? name = some i) :
    i.machine.Ranked := by
  refine (Run.machines (P := fun m => m.heap.Tidy ∧ m.Closed ∧ m.Ranked) ?_ ?_ run present).2.2
  · intro h config
    have original := Machine.original_opened h config
    exact ⟨original.tidy, .of_original original, Machine.ranked_opened h config⟩
  · intro now name a b careful shown lawful stepped holds
    obtain ⟨tidy, closed, ranked⟩ := holds
    have evolution := (Scene.step_evolution stepped tidy).1
    exact ⟨evolution.tidy tidy, evolution.ranked tidy (careful a shown) closed ranked⟩

/-- A module function that was installed is found from the module and from its singleton class; one
that was refused by the module alone is found from the singleton class. -/
theorem module_functions (run : Run Anything {} now) (present : now.world.instance? name = some i)
    (form : Form) (text : String) (n : Nat) (aspec : Aspec) :
    (∀ p m', (Act.defineCallable form (.moduleFunction c) text n aspec).run.run i.machine =
        (.ok p, m') →
      m'.Leads c text aspec.isNone form n ∧
        m'.Leads (m'.classOf (.obj c)) text aspec.isNone form n) ∧
      (Run Careful {} now → (i.machine.typeOf (.obj c)).isClassLike = true →
        i.machine.InstallsTwice c form text n aspec) := by
  constructor
  · intro p m' ran
    have does := Act.does_defineCallable (m := i.machine) (d := none) form (.moduleFunction c) text n
      aspec (grounded_of_run run present).1
    rw [ran] at does
    have binds := does.2
    simp only [Placement.homes, List.mem_cons, List.not_mem_nil, or_false, forall_eq_or_imp,
      forall_eq] at binds
    exact ⟨.of_binds binds.2, .of_binds binds.1⟩
  · intro careful typed
    obtain ⟨tidy, closed, rooted⟩ := careful.rooted present
    have healthy : i.machine.Healthy := ⟨tidy, closed, rooted⟩
    exact healthy.installsTwice (run.established present) (careful.ranked present) typed form text
      n aspec

def freezeKernel : Script := .guest (.freeze (.obj Builtin.kernel.id)) fun _ => Script.ret .nil

/-- In a machine whose module `Kernel` is frozen, the method is refused and half installed. -/
theorem module_functions_kernel : ∃ now i m', Run Careful {} now ∧
    now.world.instance? "vm" = some i ∧
      i.machine.RaisesFrozen
        (Act.defineCallable .free (.moduleFunction Builtin.kernel.id) "work" 0 .any) m' ∧
      i.machine.HalfDone m' Builtin.kernel.id "work" Aspec.any.isNone .free 0 ∧
      ¬ i.machine.Bereft Builtin.kernel.id := by
  have replayed : ((carefully 1 ⟨freezeKernel, [], { machine := .opened ⟨1⟩ {} }⟩).any fun a =>
      decide ((a.stage.machine.typeOf (.obj Builtin.kernel.id)).isClassLike = true ∧
        a.stage.machine.shape? Builtin.kernel.id = some (.module, none) ∧
        a.stage.machine.isFrozen (.obj Builtin.kernel.id) = true ∧
        Act.isSingletonOf a.stage.machine (a.stage.machine.classOf (.obj Builtin.kernel.id))
          (.obj Builtin.kernel.id) = false)) = true := by
    rw [freezeKernel, Machine.opened_eq]
    decide +kernel
  obtain ⟨a, reached, seen⟩ := (Option.any_eq_true _ _).mp replayed
  obtain ⟨typed, shape, flag, none⟩ := of_decide_eq_true seen
  have run := run_carefully_beginning reached
  have proper : ¬ a.stage.machine.Bereft Builtin.kernel.id := by
    rintro ⟨⟨p, plain⟩, -⟩
    cases shape.symm.trans plain
  have thawed : ¬ a.stage.machine.OwnFrozen Builtin.kernel.id := by
    rintro ⟨own, -⟩
    rw [none] at own
    cases own
  have installs := (module_functions (c := Builtin.kernel.id) (run.mono fun _ _ _ => trivial)
    (World.instance?_put_self _) .free "work" 0 .any).2 run typed
  obtain ⟨m', refused, half⟩ := installs.halfway flag thawed
  exact ⟨_, _, m', run, World.instance?_put_self _, refused, half, proper⟩

end Situation

end GuestVM
