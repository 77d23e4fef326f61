import GuestVM.Proofs.Machine.Climbing
import GuestVM.Proofs.NoDangling
import GuestVM.Proofs.Scene.Current

/-! # Metaclasses mirror classes

Every class has its own singleton class for a class, and the singleton classes are linked as the
classes are, whatever was defined in which order and however often the collector ran.  So a class
answers with what its own singleton class has, then those of its ancestors in their order, and then
`Class` and what `Class` descends from. -/
set_option autoImplicit false

namespace GuestVM

/-! ## Lineages -/

namespace Machine

variable {m : Machine} {c p : ObjId} {parent : Option ObjId}

/-- Above the singleton class of the root come `Class` and its ancestors. -/
theorem Mirrored.lineage_tower (mirrored : m.Mirrored) (closed : m.Closed) (rooted : m.Rooted) :
    m.lineage Builtin.classClass.id = Builtin.tower.map (·.id) := by
  have above : ∀ b ∈ Builtin.tower,
      m.lineage b.id = b.id :: ((b.parent?.map (·.id)).map m.lineage).getD [] := by
    intro b member
    have shape := mirrored.builtin b member
    rw [lineage_eq closed rooted (live_of_shape? shape), superclass?_of_shape? shape]
  rw [above .classClass (by decide)]
  change Builtin.classClass.id :: m.lineage Builtin.module.id = _
  rw [above .module (by decide)]
  change Builtin.classClass.id :: Builtin.module.id :: m.lineage Builtin.object.id = _
  rw [above .object (by decide)]
  change Builtin.classClass.id :: Builtin.module.id :: Builtin.object.id ::
    m.lineage Builtin.basicObject.id = _
  rw [above .basicObject (by decide)]
  rfl

/-- By induction on the rank of the class, which falls along its lineage. -/
theorem Mirrored.lineage_classOf (mirrored : m.Mirrored) (closed : m.Closed) (rooted : m.Rooted) :
    ∀ c parent, m.shape? c = some (.plain, parent) →
      m.lineage (m.classOf (.obj c)) =
        (m.lineage c).map (fun d => m.classOf (.obj d)) ++ Builtin.tower.map (·.id) := by
  obtain ⟨rank, falls⟩ := rooted.ranked
  suffices ranked : ∀ n c parent, rank c = n → m.shape? c = some (.plain, parent) →
      m.lineage (m.classOf (.obj c)) =
        (m.lineage c).map (fun d => m.classOf (.obj d)) ++ Builtin.tower.map (·.id) from
    fun c parent => ranked (rank c) c parent rfl
  intro n
  induction n using Nat.strongRecOn with
  | ind n ih =>
      intro c parent same shape
      have own := mirrored.own c parent shape
      rw [lineage_eq closed rooted (live_of_shape? own), superclass?_of_shape? own,
        lineage_eq closed rooted (live_of_shape? shape), superclass?_of_shape? shape]
      cases parent with
      | none => exact congrArg (_ :: ·) (mirrored.lineage_tower closed rooted)
      | some p =>
          obtain ⟨q, plainParent⟩ := mirrored.parent c p shape
          have below : rank p < n := same ▸ falls c p (superclass?_of_shape? shape)
          exact congrArg (_ :: ·) (ih (rank p) below p q rfl plainParent)

/-- The class of a class mirrors it. -/
structure MirroredAt (m : Machine) (c : ObjId) : Prop where
  own : Act.isSingletonOf m (m.classOf (.obj c)) (.obj c) = true
  parent : ∀ p, m.superclass? c = some p →
    m.superclass? (m.classOf (.obj c)) = some (m.classOf (.obj p)) ∧
      Act.isSingletonOf m (m.classOf (.obj p)) (.obj p) = true
  root : m.superclass? c = none → c = Builtin.basicObject.id ∧
    m.superclass? (m.classOf (.obj c)) = some Builtin.classClass.id
  /-- The ancestors are those of the superclass, down to the last. -/
  ancestors : m.lineage c = c :: ((m.superclass? c).map m.lineage).getD []
  lookup : ∀ mid, m.findMethod (m.classOf (.obj c)) mid =
    ((m.lineage c).map (fun d => m.classOf (.obj d)) ++ Builtin.tower.map (·.id)).findSome? fun d =>
      m.ownMethod? d mid

theorem Mirrored.at (mirrored : m.Mirrored) (closed : m.Closed) (rooted : m.Rooted)
    (plain : m.typeOf (.obj c) = .plainClass) : m.MirroredAt c := by
  have shape := shape?_of_plain plain
  have own := mirrored.own c _ shape
  constructor
  case own => exact isSingletonOf_iff.mpr ⟨_, own⟩
  case parent =>
    intro p above
    rw [above] at shape own
    obtain ⟨q, plainParent⟩ := mirrored.parent c p shape
    exact ⟨superclass?_of_shape? own, isSingletonOf_iff.mpr ⟨_, mirrored.own p q plainParent⟩⟩
  case root =>
    intro top
    rw [top] at shape own
    exact ⟨mirrored.root c shape, superclass?_of_shape? own⟩
  case ancestors => exact lineage_eq closed rooted (live_of_shape? shape)
  case lookup =>
    intro mid
    rw [findMethod_eq, mirrored.lineage_classOf closed rooted c _ shape]

end Machine

/-! ## Steps -/

namespace Bridge

variable {α : Type} {m : Machine} {b : Bridge}

theorem restores_seeing (f : Bridge → Handle → Act α) (restores : Act.Restores (f b m.handle) m) :
    Act.Restores ((seeing f).run b) m :=
  Act.Restores.of_run_eq (.bind (b := fun x => pure (x, b)) restores fun _ _ => .pure _) rfl

theorem restores_answer_defineCallable (place : Placement) (name : String) (n : Nat)
    (aspec : Aspec) : Act.Restores ((answer (.defineCallable place name n aspec)).run b) m :=
  restores_seeing
    (fun b h => Act.attempt (Act.defineCallable (b.formOf h n .bound) place name n aspec))
    (Act.restores_defineCallable _ place name n aspec).attempt

end Bridge

namespace Stage

variable {α : Type} {s s' : Stage} {a : Act α} {x : α}

theorem ask_restores (restores : Act.Restores a s.machine) (tidy : s.machine.heap.Tidy)
    (mirrored : s.machine.Mirrored) (asked : s.ask a = some (x, s')) : s'.machine.Mirrored := by
  have ran := (run_of_act (ask_eq_some.mp asked)).2
  have ends := restores tidy mirrored
  rw [ran] at ends
  exact ends.2

end Stage

namespace Scene

variable {a b : Scene}

theorem step_mirrored (lawful : a.Lawful) (stepped : a.step = some b)
    (tidy : a.stage.machine.heap.Tidy) (mirrored : a.stage.machine.Mirrored) :
    b.stage.machine.Mirrored := by
  cases founds : a.grant.founds with
  | false => exact (step_evolution stepped tidy).1.mirrored tidy founds lawful mirrored
  | true =>
      obtain ⟨script, pending, s⟩ := a
      cases script with
      | guest r next =>
          obtain ⟨⟨x, after⟩, asked, rfl⟩ := Option.map_eq_some_iff.mp stepped
          cases r with
          | defineClass outer name superclass =>
              exact Stage.ask_restores (Act.restores_defineClass outer name superclass).attempt tidy
                mirrored asked
          | defineModule outer name =>
              exact Stage.ask_restores (Act.restores_defineModule outer name).attempt tidy mirrored
                asked
          | singletonClass v =>
              exact Stage.ask_restores (Act.restores_singletonClass v).attempt tidy mirrored asked
          | _ => cases founds
      | bridge r next =>
          obtain ⟨⟨x, after⟩, asked, rfl⟩ := Option.map_eq_some_iff.mp stepped
          cases r with
          | defineCallable place name n aspec =>
              unfold Stage.askBridge at asked
              split at asked
              case h_1 y bridge after found =>
                  cases asked
                  have kept := Stage.ask_restores (s := s)
                    (Bridge.restores_answer_defineCallable place name n aspec) tidy mirrored found
                  exact kept
              case h_2 => cases asked
          | _ => cases founds
      | done o =>
          rcases pending with - | ⟨waiting, rest⟩
          · cases founds
          · cases waiting <;> cases o <;> cases founds
      | _ => cases founds

end Scene

/-! ## Runs -/

/-- What a careful run keeps of the classes of a machine. -/
structure Machine.Classed (m : Machine) : Prop where
  tidy : m.heap.Tidy
  closed : m.Closed
  rooted : m.Rooted
  mirrored : m.Mirrored

theorem Machine.Classed.step {a b : Scene} (classed : a.stage.machine.Classed)
    (stepped : a.step = some b) (handed : ∀ x ∈ a.grant.ids, a.stage.machine.Live x)
    (lawful : a.Lawful) : b.stage.machine.Classed := by
  have evolution := (Scene.step_evolution stepped classed.tidy).1
  obtain ⟨closed, rooted⟩ := evolution.rooted classed.tidy handed classed.closed classed.rooted
  exact ⟨evolution.tidy classed.tidy, closed, rooted,
    Scene.step_mirrored lawful stepped classed.tidy classed.mirrored⟩

namespace Situation

attribute [local irreducible] Machine.opened

variable {now : Situation} {name : String} {i : Instance} {c : ObjId}

theorem classed_opened (h : Handle) (config : Config) : (Machine.opened h config).Classed where
  tidy := (Machine.original_opened h config).tidy
  closed := .of_original (Machine.original_opened h config)
  rooted := Machine.rooted_of_original (Machine.original_opened h config)
  mirrored := Machine.mirrored_opened h config

theorem Run.classed (run : Run Careful {} now)
    (present : now.world.instance? name = some i) : i.machine.Classed := by
  refine Run.machines (P := Machine.Classed) classed_opened ?_ run present
  intro now name a b careful shown lawful stepped classed
  exact classed.step stepped (careful a shown) lawful

/-- The class of every class is its singleton class, linked to the others as the classes are, and
methods of the class are found along them. -/
theorem metaclasses_mirror (run : Run Careful {} now)
    (present : now.world.instance? name = some i)
    (plain : i.machine.typeOf (.obj c) = .plainClass) : i.machine.MirroredAt c := by
  have classed := run.classed present
  exact classed.mirrored.at classed.closed classed.rooted plain

theorem metaclasses_mirror_string : ∃ now i, Run Careful {} now ∧
    now.world.instance? "vm" = some i ∧
      i.machine.superclass? Builtin.string.id = some Builtin.object.id ∧
        i.machine.MirroredAt Builtin.string.id := by
  have shape := Machine.shape?_opened ⟨1⟩ {} .string (by decide)
  have run : Run Careful {} (beginning (Script.ret .nil)) :=
    run_beginning (Script.ret .nil) trivial trivial
  have present : (beginning (Script.ret .nil)).world.instance? "vm" =
      some { machine := .opened ⟨1⟩ {} } := rfl
  exact ⟨_, _, run, present, Machine.superclass?_of_shape? shape,
    metaclasses_mirror run present (Machine.typeOf_of_shape? shape)⟩

end Situation

end GuestVM
