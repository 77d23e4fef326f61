import GuestVM.Proofs.Bridge.Events
import GuestVM.Proofs.Machine.Owning

/-! # Linked machines and their callables

A linked machine keeps the index it was opened with, and a callable stays under its number of that
index, as long as scripts leave the indices and tables of linked machines to opening and closing.
Then no two open machines share a handle and no two linked ones an index, whatever is opened, closed
and registered meanwhile. -/
set_option autoImplicit false

namespace GuestVM

theorem Machine.OwnEnvs.of_original {m : Machine} (original : m.Original) : m.OwnEnvs := by
  have none : ∀ p e, m.procEnv p ≠ some e := by
    intro p e owned
    obtain ⟨o, data, present, isProc, -⟩ := Machine.procEnv_eq_some.mp owned
    have shape := original.objects p o present
    simp [Object.Original, isProc] at shape
  exact ⟨fun p e owned => (none p e owned).elim, fun p q e owned => (none p e owned).elim⟩

namespace Situation

attribute [local irreducible] Machine.opened

variable {now later : Situation} {move : Move} {name : String} {i j : Instance} {k n : Nat}
  {slot : CallableSlot}

/-- An event neither takes the index of an open linked machine away nor drops its table. -/
def Leaves (now : Situation) (e : Bridge.Event) : Prop :=
  ∀ name i k, now.world.instance? name = some i → i.link = some k →
    e ≠ .forget i.machine.handle ∧ e ≠ .drop k

/-- Scripts leave indices and tables of linked machines alone. -/
def Leaving (now : Situation) : Move → Prop
  | .act name => ∀ e ∈ now.events (.act name), now.Leaves e
  | _ => True

/-- A script gives no proc another environment from outside the rules, and leaves indices and tables
of linked machines alone. -/
def Orderly (now : Situation) : Move → Prop
  | .act name =>
    (∀ a, now.scene? name = some a → a.grant.rebinds = none) ∧
      ∀ e ∈ now.events (.act name), now.Leaves e
  | _ => True

theorem Orderly.leaving (orderly : Orderly now move) : Leaving now move := by
  cases move with
  | act name => exact orderly.2
  | _ => trivial

/-! ## Handles and indices -/

/-- What holds of the open machines and the registry if scripts leave the indices alone. -/
structure Linked (now : Situation) : Prop where
  sound : now.world.bridge.registry.Sound
  apart : ∀ name other i j, now.world.instance? name = some i →
    now.world.instance? other = some j → i.machine.handle = j.machine.handle → name = other
  registered : ∀ name i k, now.world.instance? name = some i → i.link = some k →
    now.world.bridge.registry.find i.machine.handle = some k

namespace Linked

theorem name_eq (linked : Linked now) {other : String}
    (present : now.world.instance? name = some i) (link : i.link = some k)
    (present' : now.world.instance? other = some j) (link' : j.link = some k) : name = other := by
  have held := linked.registered name i k present link
  have held' := linked.registered other j k present' link'
  exact linked.apart name other i j present present' (linked.sound.apart _ _ k held held')

/-- No such move takes away the index or the table of a linked machine, unless it closes it. -/
theorem leaves (linked : Linked now) (leaving : Leaving now move) (kept : move ≠ .close name)
    (present : now.world.instance? name = some i) (link : i.link = some k) :
    .forget i.machine.handle ∉ now.events move ∧ .drop k ∉ now.events move := by
  cases move with
  | close closed =>
      have other : name ≠ closed := fun same => kept (same ▸ rfl)
      cases shut : now.world.instance? closed with
      | none => simp [events, shut]
      | some x =>
          have handles : i.machine.handle ≠ x.machine.handle := by
            intro same
            exact other (linked.apart name closed i x present shut same)
          have links : x.link ≠ some k := by
            intro same
            exact other (linked.name_eq present link shut same)
          simpa [events, shut, handles] using links
  | act acting =>
      constructor
      · intro member
        exact (leaving _ member name i k present link).1 rfl
      · intro member
        exact (leaving _ member name i k present link).2 rfl
  | _ => simp [events]

end Linked

theorem Next.handle {allowed : Situation → Move → Prop} (run : Run allowed {} now)
    (moved : Next now move later) (after : later.world.instance? name = some j) :
    (∃ i, now.world.instance? name = some i ∧ j.machine.handle = i.machine.handle ∧
        j.link = i.link) ∨
      (j.machine.handle = ⟨now.world.nextHandle⟩ ∧ now.world.CanOpen name ∧
        ((∃ config, move = .openBare name config) ∧ j.link = none ∨
          (∃ config, move = .openLinked name config) ∧
            j.link = some (now.world.bridge.registry.register ⟨now.world.nextHandle⟩).1)) := by
  rcases moved.origin after with ⟨i, before, machine, link⟩ | ⟨config, machine, can, how⟩ |
    ⟨i, a, b, -, before, -, stepped, here, machine, link⟩
  · exact .inl ⟨i, before, congrArg Machine.handle machine, link⟩
  · have named : j.machine.handle = ⟨now.world.nextHandle⟩ := by
      rw [machine, Machine.handle_opened]
    refine .inr ⟨named, can, ?_⟩
    rcases how with ⟨bare, link⟩ | ⟨linked, link⟩
    · exact .inl ⟨⟨config, bare⟩, link⟩
    · exact .inr ⟨⟨config, linked⟩, link⟩
  · have tidy := tidy_of_run run before
    rw [← here] at tidy
    have same := (Scene.step_evolution stepped tidy).1.handle_eq
    exact .inl ⟨i, before, by rw [machine, same, here], link⟩

theorem linked_next {allowed : Situation → Move → Prop} (run : Run allowed {} now)
    (linked : Linked now) (leaving : Leaving now move) (moved : Next now move later) :
    Linked later := by
  have bridge := bridge_of_next run moved
  have fresh : ∀ other i, now.world.instance? other = some i →
      i.machine.handle = ⟨now.world.nextHandle⟩ → ∀ opened, ¬ now.world.CanOpen opened := by
    intro other i present same opened can
    exact can.unused (other, i) (mem_of_lookup present) same
  constructor
  · rw [bridge]
    exact Bridge.sound_afterAll linked.sound
  · intro name other i j present present' same
    rcases moved.handle run present with ⟨x, was, handle, -⟩ | ⟨handle, can, how⟩
    · rcases moved.handle run present' with ⟨y, was', handle', -⟩ | ⟨handle', can', -⟩
      · exact linked.apart name other x y was was' (handle ▸ handle' ▸ same)
      · have taken : x.machine.handle = ⟨now.world.nextHandle⟩ := by
          rw [← handle, same, handle']
        exact (fresh name x was taken other can').elim
    · rcases moved.handle run present' with ⟨y, was', handle', -⟩ | ⟨-, -, how'⟩
      · have taken : y.machine.handle = ⟨now.world.nextHandle⟩ := by
          rw [← handle', ← same, handle]
        exact (fresh other y was' taken name can).elim
      · rcases how with ⟨⟨c, rfl⟩, -⟩ | ⟨⟨c, rfl⟩, -⟩
        · rcases how' with ⟨⟨d, opens⟩, -⟩ | ⟨⟨d, opens⟩, -⟩
          · cases opens
            rfl
          · cases opens
        · rcases how' with ⟨⟨d, opens⟩, -⟩ | ⟨⟨d, opens⟩, -⟩
          · cases opens
          · cases opens
            rfl
  · intro name j k present link
    rcases moved.handle run present with ⟨i, was, handle, same⟩ | ⟨handle, -, how⟩
    · have kept : move ≠ .close name := by
        intro same
        subst same
        cases moved
        rw [World.instance?_close_self] at present
        cases present
      have still := (linked.leaves leaving kept was (same.symm.trans link)).1
      rw [bridge, handle]
      exact Bridge.find_afterAll (linked.registered name i k was (same.symm.trans link)) still
    · rcases how with ⟨-, bare⟩ | ⟨⟨config, rfl⟩, given⟩
      · cases bare.symm.trans link
      · rw [bridge, handle]
        cases given.symm.trans link
        exact Registry.find_register_self

theorem Run.linked_of_leaving (run : Run Leaving {} now) : Linked now := by
  induction run with
  | refl =>
      refine ⟨.empty, ?_, ?_⟩
      · intro name other i j present
        cases present
      · intro name i k present
        cases present
  | tail earlier moved ih =>
      obtain ⟨move, leaving, moved⟩ := moved
      exact linked_next earlier ih leaving moved

theorem Run.linked (run : Run Orderly {} now) : Linked now :=
  Run.linked_of_leaving (run.mono fun _ _ => Orderly.leaving)

theorem Run.ownEnvs (run : Run Orderly {} now) (present : now.world.instance? name = some i) :
    i.machine.heap.Tidy ∧ i.machine.OwnEnvs := by
  refine Run.machines (P := fun m => m.heap.Tidy ∧ m.OwnEnvs) ?_ ?_ run present
  · intro h c
    have original := Machine.original_opened h c
    exact ⟨original.tidy, .of_original original⟩
  · intro now name a b orderly shown lawful stepped both
    obtain ⟨tidy, own⟩ := both
    have evolution := (Scene.step_evolution stepped tidy).1
    exact ⟨evolution.tidy tidy, evolution.ownEnvs tidy (orderly.1 a shown) lawful own⟩

/-! ## Callables -/

/-- A linked machine has a callable under a number of its index. -/
def Offers (name : String) (k n : Nat) (slot : CallableSlot) (now : Situation) : Prop :=
  ∃ i, now.world.instance? name = some i ∧ i.link = some k ∧
    now.world.bridge.tables.lookup k n = some slot

/-- An orderly move that neither closes a machine nor takes a callable out. -/
def Holding (name : String) (k n : Nat) (now : Situation) (move : Move) : Prop :=
  Orderly now move ∧ move ≠ .close name ∧ .lose k n ∉ now.events move

theorem offers_next {allowed : Situation → Move → Prop} (run : Run allowed {} now)
    (linked : Linked now) (holding : Holding name k n now move) (moved : Next now move later)
    (offers : Offers name k n slot now) : Offers name k n slot later := by
  obtain ⟨orderly, open_, kept⟩ := holding
  obtain ⟨i, present, link, found⟩ := offers
  obtain ⟨j, present', same, -⟩ := moved.onward present open_
  have undropped := (linked.leaves orderly.leaving open_ present link).2
  refine ⟨j, present', same.trans link, ?_⟩
  rw [bridge_of_next run moved]
  exact Bridge.lookup_afterAll found kept undropped

end Situation

end GuestVM
