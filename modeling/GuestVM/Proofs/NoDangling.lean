import GuestVM.Proofs.Machine.Closed
import GuestVM.Proofs.Machine.Holding
import GuestVM.Proofs.Situation

/-! # Names never dangle

As long as the host hands over live objects only, whatever a machine names is alive, at every point
of every run: between the requests of a script, and in the middle of calls, protected regions and
walks.  A collection at any such point therefore leaves alone what the machine itself names, and what
it leaves names nothing that it took. -/
set_option autoImplicit false

namespace GuestVM.Situation

attribute [local irreducible] Machine.opened

/-- What the next step of a script is granted is alive when it is taken. -/
def Careful (now : Situation) : Move → Prop
  | .act name => ∀ a, now.scene? name = some a → ∀ x ∈ a.grant.ids, a.stage.machine.Live x
  | _ => True

variable {now : Situation} {name : String} {i : Instance}

theorem closed_opened (h : Handle) (c : Config) :
    (Machine.opened h c).heap.Tidy ∧ (Machine.opened h c).Closed :=
  ⟨(Machine.original_opened h c).tidy, .of_original (Machine.original_opened h c)⟩

theorem closed_step {a b : Scene} (stepped : a.step = some b)
    (handed : ∀ x ∈ a.grant.ids, a.stage.machine.Live x)
    (holds : a.stage.machine.heap.Tidy ∧ a.stage.machine.Closed) :
    b.stage.machine.heap.Tidy ∧ b.stage.machine.Closed := by
  obtain ⟨tidy, closed⟩ := holds
  have evolution := (Scene.step_evolution stepped tidy).1
  have kept := evolution.preserves (fun _ _ change tidy handed => change.closed tidy handed) tidy
    handed closed
  exact ⟨evolution.tidy tidy, kept.1⟩

theorem Run.closed (run : Run Careful {} now) (present : now.world.instance? name = some i) :
    i.machine.heap.Tidy ∧ i.machine.Closed := by
  refine Run.machines (P := fun m => m.heap.Tidy ∧ m.Closed) closed_opened ?_ run present
  intro now name a b careful shown lawful stepped holds
  exact closed_step stepped (careful a shown) holds

/-- Everything that a machine names is alive, and a collection frees nothing that the machine itself
or an object that is left names. -/
theorem names_alive (run : Run Careful {} now) (present : now.world.instance? name = some i) :
    (∀ x, i.machine.Names x → i.machine.Live x) ∧
      ∀ freed after, Act.collect.run.run i.machine = (.ok freed, after) → ∀ x,
        (i.machine.NamesItself x ∨ ∃ holder o, after.object? holder = some o ∧ o.Names x) →
          ∃ o, i.machine.object? x = some o ∧ after.object? x = some o := by
  obtain ⟨tidy, closed⟩ := run.closed present
  have alive : ∀ x, i.machine.Names x → i.machine.Live x :=
    fun x names => closed x (Machine.holds_of_names names)
  refine ⟨alive, ?_⟩
  intro freed after collected x named
  cases collected
  rcases named with itself | ⟨holder, p, left, names⟩
  · obtain ⟨o, live⟩ := (alive x (.inl itself)).object?
    refine ⟨o, live, Heap.get?_collect_of_root live ?_⟩
    rcases Machine.root_of_namesItself itself with root | inArena
    · exact .inl root
    · exact .inr (Array.mem_toList_iff.mpr inArena)
  · have before := Heap.get?_of_get?_collect left
    obtain ⟨o, live⟩ := (alive x (.inr ⟨holder, p, before, names⟩)).object?
    exact ⟨o, live, Heap.get?_collect_of_reference tidy left
      (Object.mem_references_of_names names) live⟩

/-! ## Careful scripts -/

/-- What some steps of a scene come to, if each is handed live ids only and none is an edit. -/
def carefully (n : Nat) (a : Scene) : Option Scene :=
  a.replay (fun a => a.Lawful ∧ ∀ x ∈ a.grant.ids, a.stage.machine.Live x) n

theorem steps_carefully {a b : Scene} {n : Nat} (replayed : carefully n a = some b) :
    Relation.ReflTransGen (fun a b =>
      (a.Lawful ∧ ∀ x ∈ a.grant.ids, a.stage.machine.Live x) ∧ a.step = some b) a b :=
  Scene.steps_of_replay replayed

theorem run_carefully {a b : Scene} {n : Nat} (replayed : carefully n a = some b) :
    Run Careful (now.showing name i a) (now.showing name i b) := by
  refine run_while (steps_carefully replayed) ?_
  rintro x ⟨lawful, handed⟩
  refine ⟨lawful, fun a shown => ?_⟩
  cases scene?_showing.symm.trans shown
  exact handed

/-- A script may be the first in a new machine. -/
theorem run_carefully_beginning {script : Script} {b : Scene} {n : Nat}
    (replayed : carefully n ⟨script, [], { machine := .opened ⟨1⟩ {} }⟩ = some b) :
    Run Careful {} ((beginning script).showing "vm" { machine := .opened ⟨1⟩ {} } b) := by
  have begun : Run Careful {} (beginning script) := run_beginning script trivial trivial
  rw [← showing_beginning script] at begun
  exact begun.trans (run_carefully replayed)

/-- The script that keeps the class `Object` on the arena. -/
def keepObject : Script := .guest (.arenaPush Builtin.object.id) fun _ => Script.ret .nil

def kept : Scene where
  script := Script.ret .nil
  stage :=
    { machine :=
        { Machine.opened ⟨1⟩ {} with
          heap := (Machine.opened ⟨1⟩ {}).heap.arenaPush Builtin.object.id } }

theorem run_kept :
    Run Careful {} ((beginning keepObject).showing "vm" { machine := .opened ⟨1⟩ {} } kept) := by
  have acted : Next (beginning keepObject) (.act "vm") _ :=
    .act "vm" { machine := .opened ⟨1⟩ {} } ⟨keepObject, [], { machine := .opened ⟨1⟩ {} }⟩ kept
      rfl rfl rfl rfl
  have careful : Careful (beginning keepObject) (.act "vm") := by
    intro a shown x granted
    cases shown
    cases List.mem_singleton.mp granted
    exact (Machine.original_opened ⟨1⟩ {}).roots _ (Machine.mem_roots.mpr (.inl ⟨.object, rfl⟩))
  exact (run_beginning keepObject trivial trivial).tail ⟨_, careful, acted⟩

theorem names_alive_kept :
    (∀ x, kept.stage.machine.Names x → kept.stage.machine.Live x) ∧
      ∀ freed after, Act.collect.run.run kept.stage.machine = (.ok freed, after) → ∀ x,
        (kept.stage.machine.NamesItself x ∨
            ∃ holder o, after.object? holder = some o ∧ o.Names x) →
          ∃ o, kept.stage.machine.object? x = some o ∧ after.object? x = some o :=
  names_alive run_kept (World.instance?_put_self _)

end GuestVM.Situation
