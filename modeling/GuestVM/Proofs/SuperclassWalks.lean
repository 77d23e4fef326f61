import GuestVM.Proofs.Machine.Climbing
import GuestVM.Proofs.NoDangling

/-! # Superclass walks end

Whatever a run defines, collects and puts into slots that were left, a new class comes after its
superclass, so a superclass chain never comes back to where it was.  Hence every walk up a chain ends,
from any id, dead ids included: the lookup of methods and constants, kinship, the real class of a
value, and the making of singleton classes. -/
set_option autoImplicit false

namespace GuestVM

/-- Superclass chains end, and so does what goes up them. -/
structure Machine.WalksEnd (m : Machine) : Prop where
  /-- Superclasses are live, and no class is above itself. -/
  live : ∀ c p, m.Superclass p c → m.Live c ∧ m.Live p
  acyclic : ∀ c, ¬ Relation.TransGen m.Superclass c c
  wellFounded : WellFounded m.Superclass
  /-- The lineage of an id is its chain up to the end. -/
  chains : ∀ c, m.WholeChain c (m.lineage c) ∧ (m.lineage c).Nodup
  walks : ∀ {β : Type} (ask : ObjId → Option β) (c : ObjId), ∃! r, m.Ascent ask c r
  /-- What the machine finds is what walks find. -/
  methods : ∀ c mid, m.Ascent (m.ownMethod? · mid) c (m.findMethod c mid)
  responses : ∀ v name, m.respondTo v name = true ↔
    ∃ mid method, m.symbols.check name = some mid ∧
      m.Ascent (m.ownMethod? · mid) (m.classOf v) (some method)
  descent : ∀ c ancestor, m.descendsFrom c ancestor = true ↔
    m.Ascent (Machine.sameAt ancestor) c (some ())
  kinship : ∀ v c, m.isKindOf v c = true ↔ m.Ascent (Machine.sameAt c) (m.classOf v) (some ())
  realClasses : ∀ v, m.Ascent m.realAt (m.classOf v) (some (m.realClassOf v))
  constants : ∀ c name v, m.lookupConst c name = some v ↔
    ∃ s r, m.symbols.check name = some s ∧ m.Ascent (m.constAt s) c r ∧
      r.getD (m.ownConst? Builtin.object.id s) = some v
  /-- Looking up a constant and making a singleton class come to an end, the latter with as many
  levels of recursion as there are slots and one. -/
  constGet : ∀ c name, Act.Ends (Act.constGet c name) m
  singletons : ∀ v, Act.Ends (Act.singletonClass v) m
  levels : ∀ v n, m.heap.slots.size < n →
    (Act.singletonWithin n v).run.run m = (Act.singletonClass v).run.run m

namespace Machine

variable {m : Machine}

theorem walksEnd (tidy : m.heap.Tidy) (closed : m.Closed) (rooted : m.Rooted) : m.WalksEnd where
  live c p above := by
    obtain ⟨data, isClass, parent⟩ := superclass?_eq_some.mp above
    exact ⟨live_of_classData? isClass,
      closed p (holds_of_classData? isClass (ClassData.mem_references.mpr (.inl parent)))⟩
  acyclic := not_transGen_superclass rooted
  wellFounded := wellFounded_superclass rooted
  chains c := by
    obtain ⟨rank, falls⟩ := rooted.ranked
    exact ⟨rooted.wholeChain c, nodup_chain falls _ c⟩
  walks ask c := ⟨_, rooted.ascent ask c, fun _ walk => walk.unique (rooted.ascent ask c)⟩
  methods := rooted.ascent_findMethod
  responses := rooted.respondTo_iff
  descent := rooted.descendsFrom_iff
  kinship v := rooted.descendsFrom_iff (m.classOf v)
  realClasses := ascent_realClassOf rooted
  constants := rooted.lookupConst_iff
  constGet := Act.ends_constGet tidy rooted
  singletons v := (Act.run_singletonClass tidy rooted v).1
  levels v := (Act.run_singletonClass tidy rooted v).2

end Machine

namespace Situation

attribute [local irreducible] Machine.opened

variable {now : Situation} {name : String} {i : Instance}

theorem Run.rooted (run : Run Careful {} now) (present : now.world.instance? name = some i) :
    i.machine.heap.Tidy ∧ i.machine.Closed ∧ i.machine.Rooted := by
  refine Run.machines (P := fun m => m.heap.Tidy ∧ m.Closed ∧ m.Rooted) ?_ ?_ run present
  · intro h config
    have original := Machine.original_opened h config
    exact ⟨original.tidy, .of_original original, Machine.rooted_of_original original⟩
  · intro now name a b careful shown _ stepped holds
    obtain ⟨tidy, closed, rooted⟩ := holds
    have evolution := (Scene.step_evolution stepped tidy).1
    exact ⟨evolution.tidy tidy, evolution.rooted tidy (careful a shown) closed rooted⟩

/-- In every machine of a run in which the host hands over live objects only, every walk up a
superclass chain ends. -/
theorem superclass_walks_end (run : Run Careful {} now)
    (present : now.world.instance? name = some i) : i.machine.WalksEnd := by
  obtain ⟨tidy, closed, rooted⟩ := run.rooted present
  exact Machine.walksEnd tidy closed rooted

/-! ## A class in an older slot than its superclass -/

/-- Defines a class below another in a slot that a string has left. -/
def reusing : Script :=
  .guest (.stringNew []) fun _ =>
    .guest (.defineClass Builtin.object.id "Outer" none) fun
      | .ok outer =>
        .guest (.arenaRestore 0) fun _ => .guest .collect fun _ =>
          .guest (.defineClass Builtin.object.id "Inner" (some outer)) fun
            | .ok inner => Script.ret (.obj inner)
            | .error e => .done (.raised e)
      | .error e => .done (.raised e)

/-- The string had the first slot that a new machine leaves empty, and the class Outer has the
second. -/
theorem reusing_replayed : ∃ a,
    carefully 5 ⟨reusing, [], { machine := .opened ⟨1⟩ {} }⟩ = some a ∧
      a.stage.machine.Superclass ⟨63⟩ ⟨62⟩ := by
  have replayed : ((carefully 5 ⟨reusing, [], { machine := .opened ⟨1⟩ {} }⟩).any fun a =>
      decide (a.stage.machine.superclass? ⟨62⟩ = some ⟨63⟩)) = true := by
    rw [Machine.opened_eq]
    decide +kernel
  obtain ⟨a, reached, found⟩ := (Option.any_eq_true _ _).mp replayed
  have above : a.stage.machine.superclass? ⟨62⟩ = some ⟨63⟩ := of_decide_eq_true found
  exact ⟨a, reached, above⟩

/-- Ids do not grow along the chain of the class, and the walks end. -/
theorem superclass_walks_end_reused : ∃ now i inner outer, Run Careful {} now ∧
    now.world.instance? "vm" = some i ∧ i.machine.Superclass outer inner ∧
      inner.slot < outer.slot ∧ i.machine.WalksEnd := by
  obtain ⟨a, reached, above⟩ := reusing_replayed
  have run := run_carefully_beginning reached
  exact ⟨_, _, _, _, run, World.instance?_put_self _, above, by decide,
    superclass_walks_end run (World.instance?_put_self _)⟩

end Situation

end GuestVM
