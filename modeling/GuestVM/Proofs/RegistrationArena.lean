import GuestVM.Proofs.Bridge.Rejecting
import GuestVM.Proofs.HostErrors
import GuestVM.Proofs.Machine.Interposing
import GuestVM.Proofs.Script.Quiet
import GuestVM.Proofs.SuperclassWalks

/-! # What registrations leave on the arena

An installation cuts the arena back to where it was.  But a method for a singleton class has that
class made first, if it is not there yet, and what is made then stays on the arena.  The singleton
class names the object it is made for, so that is kept, too: of objects with methods of their own,
none is ever collected as long as the host does not cut the arena back itself. -/
set_option autoImplicit false

namespace GuestVM

/-- The value whose singleton class the place asks for. -/
def Placement.target : Placement → Option Value
  | .method _ => none
  | .classMethod c => some (.obj c)
  | .singletonMethod v => some v
  | .moduleFunction c => some (.obj c)

/-- The action comes to an end, whether it raises or not, and `m'` is the machine then. -/
def Act.EndsIn {α : Type} (a : Act α) (m m' : Machine) : Prop :=
  ∃ r, a.run.run m = (r, m') ∧ r ≠ .error .endless

namespace Machine

/-- A live object without a singleton class of its own. -/
structure Unsingled (m : Machine) (x : ObjId) : Prop where
  live : m.Live x
  none : Act.isSingletonOf m (m.classOf (.obj x)) (.obj x) = false

/-- What has come onto the arena between `m` and `m'` are these singleton classes, all new. -/
structure Provides (m m' : Machine) (made : List ObjId) : Prop where
  arena : m'.heap.arena.toList = m.heap.arena.toList ++ made
  fresh : ∀ s ∈ made, ¬ m.Live s
  singletons : ∀ s ∈ made, ∃ y, m.Live y ∧ Act.isSingletonOf m' s (.obj y) = true

/-- The singleton class of `x` is among those that were made.  It is the only one, unless `x` is a
class that had lost its own, for the superclass of `x` may have lost its own, too. -/
structure Singles (m m' : Machine) (x : ObjId) (made : List ObjId) : Prop where
  provides : m.Provides m' made
  own : m'.classOf (.obj x) ∈ made
  alone : ¬ m.Bereft x → made = [m'.classOf (.obj x)]

/-- The arena keeps the singleton class `s` of `x`, and a collection takes neither. -/
structure Pins (m : Machine) (s x : ObjId) : Prop where
  onArena : s ∈ m.heap.arena.toList
  own : Act.isSingletonOf m s (.obj x) = true
  stays : ∀ y ∈ [s, x], ∀ o, m.object? y = some o →
    (m.heap.collect m.roots).2.get? y = some o

variable {m m' : Machine} {x s : ObjId}

theorem arena_withSingleton (m : Machine) (x superclass : ObjId) :
    (m.withSingleton x superclass).heap.arena =
      m.heap.arena.push (m.newId (singletonOf x superclass)) :=
  Heap.alloc_arena m.heap (singletonOf x superclass)

theorem isSingletonOf_of_shape? {v : ObjId} (same : m'.shape? s = m.shape? s)
    (own : Act.isSingletonOf m s (.obj v) = true) : Act.isSingletonOf m' s (.obj v) = true := by
  obtain ⟨p, shape⟩ := isSingletonOf_iff.mp own
  exact isSingletonOf_iff.mpr ⟨p, same.trans shape⟩

theorem pins_of_mem (tidy : m.heap.Tidy) (member : s ∈ m.heap.arena.toList)
    (own : Act.isSingletonOf m s (.obj x) = true) : m.Pins s x := by
  refine ⟨member, own, ?_⟩
  obtain ⟨q, data, kept, body, kind⟩ := object?_of_isSingletonOf own
  have stays : (m.heap.collect m.roots).2.get? s = some q :=
    Heap.get?_collect_of_root kept (.inr member)
  have named : x ∈ q.references := by
    refine Object.mem_references_of_body ?_
    rw [body]
    exact ClassData.mem_references.mpr (.inr (.inr (.inr kind)))
  intro y either o present
  rcases List.mem_cons.mp either with rfl | last
  · cases kept.symm.trans present
    exact stays
  · cases List.mem_singleton.mp last
    exact Heap.get?_collect_of_reference tidy stays named present

/-! ## Making singleton classes -/

theorem Provides.refl (m : Machine) : m.Provides m [] where
  arena := (List.append_nil _).symm
  fresh := List.forall_mem_nil _
  singletons := List.forall_mem_nil _

theorem Provides.withSingleton {made : List ObjId} (provides : m.Provides m' made)
    (superclass : ObjId) (tidy : m'.heap.Tidy) (lasts : ∀ y, m.Live y → m'.Live y)
    (live : m.Live x) :
    m.Provides (m'.withSingleton x superclass) (made ++ [m'.newId (singletonOf x superclass)]) := by
  constructor
  case arena => rw [arena_withSingleton, Array.toList_push, provides.arena, List.append_assoc]
  case fresh =>
    intro t member
    rcases List.mem_append.mp member with old | new
    · exact provides.fresh t old
    · cases List.mem_singleton.mp new
      exact fun alive => ne_newId tidy _ (lasts _ alive) rfl
  case singletons =>
    intro t member
    rcases List.mem_append.mp member with old | new
    · obtain ⟨y, alive, own⟩ := provides.singletons t old
      exact ⟨y, alive, isSingletonOf_of_shape?
        (shape?_withSingleton_of_live tidy (live_of_isSingletonOf own)) own⟩
    · cases List.mem_singleton.mp new
      refine ⟨x, live, isSingletonOf_iff.mpr ⟨some superclass, ?_⟩⟩
      rw [shape?_withSingleton tidy, if_pos rfl]

/-- By induction along the superclasses, the singleton class of the class itself comes last. -/
theorem Obtains.provides (obtains : m.Obtains x s m') (tidy : m.heap.Tidy) :
    ∃ made, m.Provides m' made ∧ (m.Unsingled x → m.Singles m' x made) := by
  -- Whichever way the last one is made, others are made before it only for a bereft class.
  have last : ∀ {middle : Machine} {made : List ObjId} {x : ObjId} (p : ObjId),
      m.Provides middle made → middle.heap.Tidy → m.Reclasses middle → m.Live x →
      (m.Bereft x ∨ made = []) → ∃ made, m.Provides (middle.withSingleton x p) made ∧
        (m.Unsingled x → m.Singles (middle.withSingleton x p) x made) := by
    intro middle made x p provides tidy same live either
    have whole := provides.withSingleton p tidy (fun _ => same.live) live
    have own : (middle.withSingleton x p).classOf (.obj x) = middle.newId (singletonOf x p) := by
      rw [classOf_withSingleton tidy (same.live live), if_pos rfl]
    refine ⟨_, whole, fun _ => ⟨whole, ?_, fun proper => ?_⟩⟩
    · rw [own]
      exact List.mem_append_right _ (List.mem_singleton_self _)
    · rw [own, either.resolve_left proper, List.nil_append]
  induction obtains with
  | kept present own =>
      refine ⟨[], .refl m, fun unsingled => ?_⟩
      have none := unsingled.none
      rw [classOf_of_object? present, own] at none
      cases none
  | under present foreign shape above ih =>
      obtain ⟨made, provides, -⟩ := ih
      rw [← classOf_of_object? present, Bool.not_eq_true] at foreign
      exact last _ provides (above.tidy tidy) (above.reclasses tidy) (.of_object? present)
        (.inl ⟨⟨_, shape⟩, foreign⟩)
  | rootless present =>
      exact last _ (.refl m) tidy (.refl m) (.of_object? present) (.inr rfl)

/-! ## What installations leave alone -/

/-- An object stays without a singleton class where its class and the shapes of classes stay. -/
theorem Unsingled.transfer {y : ObjId} (unsingled : m.Unsingled y) (closed : m.Closed)
    (live : m'.Live y) (classOf : m'.classOf (.obj y) = m.classOf (.obj y))
    (shapes : ∀ z, m.Live z → m'.shape? z = m.shape? z) :
    m'.Unsingled y ∧ (m'.Bereft y → m.Bereft y) := by
  refine ⟨⟨live, ?_⟩, ?_⟩
  · rw [classOf, Bool.eq_false_iff]
    intro own
    have none := unsingled.none
    have same := shapes _ (unsingled.live.isLive.classOf closed)
    rw [isSingletonOf_of_shape? same.symm own] at none
    cases none
  · rintro ⟨⟨p, below⟩, -⟩
    exact ⟨⟨p, (shapes y unsingled.live).symm.trans below⟩, unsingled.none⟩

theorem Unsingled.of_evolution {y : ObjId} (unsingled : m.Unsingled y)
    (evolution : Evolution {} m m') (tidy : m.heap.Tidy) (closed : m.Closed) :
    m'.Unsingled y ∧ (m'.Bereft y → m.Bereft y) :=
  unsingled.transfer closed (evolution.live tidy rfl unsingled.live)
    (evolution.classOf_eq tidy rfl rfl unsingled.live)
    fun _ live => evolution.shape?_eq tidy rfl rfl live

theorem Unsingled.of_interposed {y : ObjId} {o : Object} (unsingled : m.Unsingled y)
    (made : m.Interposed m' x s o) (closed : m.Closed) (apart : y ≠ x) :
    m'.Unsingled y ∧ (m'.Bereft y → m.Bereft y) := by
  obtain ⟨p, q, -, now, -⟩ := made.object?_of_live unsingled.live
  refine unsingled.transfer closed (.of_object? now) ?_ fun z live => ?_
  · exact made.classOf_of_ne unsingled.live.isLive fun same => apart (Value.obj.inj same)
  · rw [shape?_eq, shape?_eq, made.classData?_eq live]

/-- Installations leave the singleton classes where they are. -/
theorem Singles.of_evolution {last : Machine} {made : List ObjId} (singles : m.Singles m' x made)
    (evolution : Evolution {} m' last) (tidy : m'.heap.Tidy)
    (arena : last.heap.arena = m'.heap.arena) (live : m'.Live x) : m.Singles last x made := by
  have classOf := evolution.classOf_eq tidy rfl rfl live
  refine ⟨⟨arena ▸ singles.provides.arena, singles.provides.fresh, fun t member => ?_⟩,
    classOf ▸ singles.own, classOf ▸ singles.alone⟩
  obtain ⟨y, alive, own⟩ := singles.provides.singletons t member
  exact ⟨y, alive, isSingletonOf_of_shape?
    (evolution.shape?_eq tidy rfl rfl (live_of_isSingletonOf own)) own⟩

end Machine

namespace Act

variable {α β : Type} {m m' : Machine} {x : ObjId} {form : Form} {name : String} {n : Nat}
  {aspec : Aspec}

theorem EndsIn.bind {a : Act α} {f : α → Act β} (ends : EndsIn (a >>= f) m m') :
    (∃ y middle, a.run.run m = (.ok y, middle) ∧ EndsIn (f y) middle m') ∨
      ∃ e, a.run.run m = (.error (.raised e), m') := by
  obtain ⟨r, ran, proper⟩ := ends
  rw [run_bind] at ran
  rcases first : a.run.run m with ⟨(e | _) | y, middle⟩
  · rw [first] at ran
    cases ran
    exact .inr ⟨e, rfl⟩
  · rw [first] at ran
    cases ran
    exact (proper rfl).elim
  · rw [first] at ran
    exact .inl ⟨y, middle, rfl, r, ran, proper⟩

theorem EndsIn.installs {c : ObjId} (ends : EndsIn (defineBridged form c name n aspec) m m')
    (tidy : m.heap.Tidy) : Evolution {} m m' ∧ m'.heap.arena = m.heap.arena := by
  obtain ⟨r, ran, proper⟩ := ends
  refine ⟨?_, (calm_installing form c name n aspec).arena_inArenaScope tidy ran proper⟩
  have does := does_defineBridged (m := m) form c name n aspec false tidy
  rw [ran] at does
  rcases r with (e | _) | p
  · exact does.1
  · exact (proper rfl).elim
  · exact does.1

/-- Whatever becomes of the definition, it asks for a singleton class first and installs then. -/
theorem EndsIn.asks {place : Placement}
    (ends : EndsIn (defineCallable form place name n aspec) m m') (established : m.Established)
    (grounded : m.Grounded) (target : place.target = some (.obj x)) (live : m.Live x) :
    ∃ s made, (singletonClass (.obj x)).run.run m = (.ok s, made) ∧
      Evolution { founds := true } m made ∧ Evolution {} made m' ∧
        m'.heap.arena = made.heap.arena := by
  have once : ∀ {middle}, EndsIn (defineBridgedOn form (.obj x) name n aspec) m middle →
      ∃ s made, (singletonClass (.obj x)).run.run m = (.ok s, made) ∧
        Evolution { founds := true } m made ∧ Evolution {} made middle ∧
          middle.heap.arena = made.heap.arena := by
    intro middle ends
    rcases ends.bind with ⟨s, made, ran, second⟩ | ⟨e, raised⟩
    · have does := does_singletonClass (g := { founds := true }) (m := m) rfl rfl (.obj x)
        established.tidy
      rw [ran] at does
      exact ⟨s, made, ran, does.1, second.installs (does.1.tidy established.tidy)⟩
    · exact (unraised_singletonClass grounded live e middle raised).elim
  cases place with
  | method c => cases target
  | classMethod c =>
      cases target
      exact once ends
  | singletonMethod v =>
      cases target
      exact once ends
  | moduleFunction c =>
      cases target
      rcases ends.bind with ⟨p, middle, ran, second⟩ | ⟨e, raised⟩
      -- The second installation of a module function opens a scope of its own.
      · obtain ⟨s, made, asked, founding, evolution, arena⟩ := once ⟨_, ran, nofun⟩
        have tidy := evolution.tidy (founding.tidy established.tidy)
        obtain ⟨further, still⟩ := second.installs tidy
        exact ⟨s, made, asked, founding, evolution.trans further, still.trans arena⟩
      · exact once ⟨_, raised, nofun⟩

/-- The proc alone stays on the arena. -/
theorem run_callableProc (tidy : m.heap.Tidy) (form : Form) (n : Nat) :
    ∃ p m', (callableProc form n).run.run m = (.ok (.obj p), m') ∧ ¬ m.Live p ∧
      m'.heap.arena = m.heap.arena.push p := by
  obtain ⟨p, made, ran, -, -⟩ := run_newBridged tidy form n
  have does := does_newBridged (g := {}) (m := m) form n tidy
  rw [ran] at does
  have inside : (inArenaScope (newBridged form n)).run.run m =
      (.ok p, { made with heap := made.heap.arenaRestore m.heap.arenaSave }) := by
    rw [run_inArenaScope, ran]
  have arena := (calm_newBridged form n).arena_inArenaScope tidy inside nofun
  refine ⟨p, _, run_ok_bind inside _, ?_, congrArg (·.push p) arena⟩
  rw [Machine.Live, does.2.1]
  exact Bool.false_ne_true

end Act

namespace Machine

/-- What registrations leave on the arena, by the singleton class that they ask for. -/
structure RegistersOnArena (m : Machine) (form : Form) (name : String) (n : Nat) (aspec : Aspec) :
    Prop where
  methods : ∀ c m', (Act.defineCallable form (.method c) name n aspec).EndsIn m m' →
    m'.heap.arena = m.heap.arena
  procs : ∃ p m', (Act.callableProc form n).run.run m = (.ok (.obj p), m') ∧ ¬ m.Live p ∧
    m'.heap.arena = m.heap.arena.push p
  /-- A singleton class that is there is used. -/
  singled : ∀ place x m', place.target = some (.obj x) → m.Live x → ¬ m.Unsingled x →
    (Act.defineCallable form place name n aspec).EndsIn m m' → m'.heap.arena = m.heap.arena
  /-- One that is not is made, and never taken off. -/
  unsingled : ∀ place x m', place.target = some (.obj x) → m.Unsingled x →
    (Act.defineCallable form place name n aspec).EndsIn m m' →
    ∃ made, m.Singles m' x made ∧ ∀ s ∈ made, ∃ y, m.Live y ∧ m'.Pins s y
  /-- The exception for a value that has none stays, too. -/
  refused : ∀ place v, place.target = some v → (∀ x, v = .obj x → ¬ m.Live x) →
    m.Fails (Act.defineCallable form place name n aspec) .typeError "can't define singleton"

variable {m m' : Machine} {x : ObjId} {form : Form} {name : String} {n : Nat} {aspec : Aspec}

theorem Established.refused_defineCallable (established : m.Established) {place : Placement}
    {v : Value} (target : place.target = some v) (dead : ∀ x, v = .obj x → ¬ m.Live x) :
    m.Fails (Act.defineCallable form place name n aspec) .typeError "can't define singleton" := by
  have missing : (v.asObj.bind fun id => (m.object? id).map fun o => (id, o)) = none := by
    cases v with
    | obj x =>
        have absent : m.object? x = none := by simpa [Live] using dead x rfl
        simp [Value.asObj, absent]
    | _ => rfl
  have asked : m.Fails (Act.singletonClass v) .typeError "can't define singleton" := by
    refine established.fails ?_
    rw [Act.singletonClass, Act.run_get_bind, Act.singletonWithin, Act.run_get_bind]
    simp only [missing]
  have first : m.Fails (Act.defineBridgedOn form v name n aspec) .typeError
      "can't define singleton" := asked.bind _
  cases place with
  | method c => cases target
  | classMethod c =>
      cases target
      exact first
  | singletonMethod v =>
      cases target
      exact first
  | moduleFunction c =>
      cases target
      exact first.bind _

theorem Established.registersOnArena (established : m.Established) (grounded : m.Grounded)
    (form : Form) (name : String) (n : Nat) (aspec : Aspec) :
    m.RegistersOnArena form name n aspec := by
  have tidy := established.tidy
  constructor
  case methods => exact fun c m' ends => (ends.installs tidy).2
  case procs => exact Act.run_callableProc tidy form n
  case singled =>
    intro place x m' target live singled ends
    obtain ⟨s, made, ran, -, -, arena⟩ := ends.asks established grounded target live
    obtain ⟨o, present⟩ := live.object?
    have own : Act.isSingletonOf m o.cls (.obj x) = true := by
      by_contra none
      refine singled ⟨live, ?_⟩
      rw [classOf_of_object? present]
      simpa using none
    have there : (Act.singletonClass (.obj x)).run.run m = (.ok o.cls, m) :=
      Act.run_singletonWithin_of_own present own _
    cases there.symm.trans ran
    exact arena
  case unsingled =>
    intro place x m' target unsingled ends
    obtain ⟨s, middle, ran, founding, evolution, arena⟩ :=
      ends.asks established grounded target unsingled.live
    obtain ⟨made, -, singles⟩ := (Act.obtains_of_singletonClass tidy ran).provides tidy
    have after := founding.tidy tidy
    have whole := (singles unsingled).of_evolution evolution after arena
      (founding.live tidy rfl unsingled.live)
    refine ⟨made, whole, fun t member => ?_⟩
    obtain ⟨y, live, own⟩ := whole.provides.singletons t member
    refine ⟨y, live, pins_of_mem (evolution.tidy after) ?_ own⟩
    rw [whole.provides.arena]
    exact List.mem_append_right _ member
  case refused => exact fun place v target dead => established.refused_defineCallable target dead

/-! ## One registration after the other -/

/-- Callables are registered in one place after the other, and a registration that fails is passed
over. -/
inductive Registers : Machine → List Placement → Machine → Prop
  | nil (m : Machine) : Registers m [] m
  | cons {m middle m' : Machine} {place : Placement} {rest : List Placement} (form : Form)
      (name : String) (n : Nat) (aspec : Aspec)
      (ends : (Act.defineCallable form place name n aspec).EndsIn m middle)
      (later : Registers middle rest m') : Registers m (place :: rest) m'

/-- What has no singleton class and gets just one when it is asked for it. -/
def Awaits (m : Machine) (x : ObjId) : Prop := m.Unsingled x ∧ ¬ m.Bereft x

end Machine

namespace Act.EndsIn

variable {m m' : Machine} {x : ObjId} {place : Placement} {form : Form} {name : String} {n : Nat}
  {aspec : Aspec}

theorem evolution (ends : EndsIn (defineCallable form place name n aspec) m m')
    (tidy : m.heap.Tidy) : Evolution { founds := true } m m' := by
  obtain ⟨r, ran, proper⟩ := ends
  have does := does_defineCallable (m := m) (d := none) form place name n aspec tidy
  rw [ran] at does
  rcases r with (e | _) | p
  · exact does.1
  · exact (proper rfl).elim
  · exact does.1

/-- The object that gets its singleton class costs a place on the arena, and the others still wait
for theirs. -/
theorem adds (ends : EndsIn (defineCallable form place name n aspec) m m')
    (established : m.Established) (healthy : m.Healthy) (target : place.target = some (.obj x))
    (awaits : m.Awaits x) : m'.heap.arena.size = m.heap.arena.size + 1 ∧
      ∀ y, y ≠ x → m.Awaits y → m'.Awaits y := by
  obtain ⟨unsingled, proper⟩ := awaits
  have grounded : m.Grounded := .of_closed healthy.closed
  constructor
  · obtain ⟨made, singles, -⟩ := (established.registersOnArena grounded form name n aspec).unsingled
      place x m' target unsingled ends
    have grown := congrArg List.length singles.provides.arena
    rw [singles.alone proper] at grown
    simpa using grown
  · obtain ⟨s, made, ran, founding, evolution, -⟩ :=
      ends.asks established grounded target unsingled.live
    rcases Machine.singletonClass_cases healthy.tidy proper ran with
      ⟨-, rfl, own⟩ | ⟨-, o, interposed⟩
    · rw [unsingled.none] at own
      cases own
    have sound := founding.healthy nofun healthy
    intro y apart ⟨waiting, rootless⟩
    obtain ⟨still, back⟩ := waiting.of_interposed interposed healthy.closed apart
    obtain ⟨last, further⟩ := still.of_evolution evolution sound.tidy sound.closed
    exact ⟨last, fun bereft => rootless (back (further bereft))⟩

end Act.EndsIn

namespace Machine

variable {m m' : Machine}

/-- By induction on the registrations: as many ids come onto the arena as objects get their singleton
classes. -/
theorem Registers.size_arena {places : List Placement} (registers : m.Registers places m')
    (established : m.Established) (healthy : m.Healthy) {xs : List ObjId}
    (targets : places.filterMap Placement.target = xs.map .obj) (distinct : xs.Nodup)
    (awaits : ∀ x ∈ xs, m.Awaits x) : m'.heap.arena.size = m.heap.arena.size + xs.length := by
  induction registers generalizing xs with
  | nil =>
      cases xs with
      | nil => rfl
      | cons x rest => cases targets
  | @cons m middle m' place rest form name n aspec ends later ih =>
      have evolution := ends.evolution healthy.tidy
      have steady := evolution.established established
      have sound := evolution.healthy nofun healthy
      cases target : place.target with
      | none =>
          rw [List.filterMap_cons_none target] at targets
          obtain ⟨c, rfl⟩ : ∃ c, place = .method c := by
            cases place with
            | method c => exact ⟨c, rfl⟩
            | _ => cases target
          obtain ⟨quiet, arena⟩ := Act.EndsIn.installs ends healthy.tidy
          rw [ih steady sound targets distinct fun x member => ?_, arena]
          obtain ⟨unsingled, proper⟩ := awaits x member
          obtain ⟨still, back⟩ := unsingled.of_evolution quiet healthy.tidy healthy.closed
          exact ⟨still, fun bereft => proper (back bereft)⟩
      | some v =>
          rw [List.filterMap_cons_some target] at targets
          cases xs with
          | nil => cases targets
          | cons x xs =>
              obtain ⟨rfl, others⟩ := List.cons.inj targets
              obtain ⟨apart, distinct⟩ := List.nodup_cons.mp distinct
              obtain ⟨added, waiting⟩ :=
                ends.adds established healthy target (awaits x List.mem_cons_self)
              rw [ih steady sound others distinct fun y member => waiting y ?_ ?_, added]
              · rw [List.length_cons]
                omega
              · exact fun same => apart (same ▸ member)
              · exact awaits y (List.mem_cons_of_mem _ member)

end Machine

namespace Situation

attribute [local irreducible] Machine.opened

variable {now : Situation} {name : String} {i : Instance}

/-- Methods for classes and procs leave the arena as their scopes do; methods for singleton classes
leave the singleton classes on it that they have made, one for each object that had none. -/
theorem registration_arena (run : Run Anything {} now)
    (present : now.world.instance? name = some i) :
    (∀ form text n aspec, i.machine.RegistersOnArena form text n aspec) ∧
      (Run Careful {} now → ∀ places m' (xs : List ObjId), i.machine.Registers places m' →
        places.filterMap Placement.target = xs.map .obj → xs.Nodup →
        (∀ x ∈ xs, i.machine.Awaits x) →
          m'.heap.arena.size = i.machine.heap.arena.size + xs.length) := by
  have established := run.established present
  constructor
  · exact established.registersOnArena (grounded_of_run run present).2
  · intro careful places m' xs registers targets distinct awaits
    obtain ⟨tidy, closed, rooted⟩ := careful.rooted present
    exact registers.size_arena established ⟨tidy, closed, rooted⟩ targets distinct awaits

/-- The singleton class of `Kernel` stays on the arena when `Kernel` gets a method of its own. -/
theorem registration_arena_kernel : ∃ now i m' made, Run Careful {} now ∧
    now.world.instance? "vm" = some i ∧
      i.machine.Singles m' Builtin.kernel.id made ∧
      (∀ s ∈ made, ∃ y, i.machine.Live y ∧ m'.Pins s y) ∧
      m'.heap.arena.size = i.machine.heap.arena.size + 1 := by
  have run : Run Careful {} (beginning (Script.ret .nil)) :=
    run_beginning (Script.ret .nil) trivial trivial
  have freely : Run Anything {} (beginning (Script.ret .nil)) := run.mono fun _ _ _ => trivial
  have present : (beginning (Script.ret .nil)).world.instance? "vm" =
      some { machine := .opened ⟨1⟩ {} } := rfl
  obtain ⟨none, shape, ended⟩ : Act.isSingletonOf (Machine.opened ⟨1⟩ {})
      ((Machine.opened ⟨1⟩ {}).classOf (.obj Builtin.kernel.id)) (.obj Builtin.kernel.id) = false ∧
      (Machine.opened ⟨1⟩ {}).shape? Builtin.kernel.id = some (.module, none) ∧
      ((Act.defineCallable .free (.classMethod Builtin.kernel.id) "work" 0 .any).run.run
        (Machine.opened ⟨1⟩ {})).1.isOk = true := by
    rw [Machine.opened_eq]
    decide +kernel
  rcases ran : (Act.defineCallable .free (.classMethod Builtin.kernel.id) "work" 0 .any).run.run
    (Machine.opened ⟨1⟩ {}) with ⟨r, m'⟩
  rw [ran] at ended
  have ends : (Act.defineCallable .free (.classMethod Builtin.kernel.id) "work" 0 .any).EndsIn
      (Machine.opened ⟨1⟩ {}) m' := ⟨r, ran, by rintro rfl; cases ended⟩
  have unsingled : (Machine.opened ⟨1⟩ {}).Unsingled Builtin.kernel.id :=
    ⟨Machine.live_of_shape? shape, none⟩
  have proper : ¬ (Machine.opened ⟨1⟩ {}).Bereft Builtin.kernel.id := by
    rintro ⟨⟨p, plain⟩, -⟩
    cases shape.symm.trans plain
  obtain ⟨leaves, grows⟩ := registration_arena freely present
  obtain ⟨made, singles, pins⟩ := (leaves .free "work" 0 .any).unsingled _ _ m' rfl unsingled ends
  refine ⟨_, _, m', made, run, present, singles, pins, ?_⟩
  refine grows run [.classMethod Builtin.kernel.id] m' [Builtin.kernel.id]
    (.cons .free "work" 0 .any ends (.nil m')) rfl (List.nodup_singleton _) fun x member => ?_
  cases List.mem_singleton.mp member
  exact ⟨unsingled, proper⟩

end Situation

end GuestVM
