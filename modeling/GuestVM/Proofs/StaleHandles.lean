import GuestVM.Proofs.Bridge.Handles
import GuestVM.Proofs.FrozenData
import GuestVM.Proofs.HostErrors

/-! # Handles that outlive their objects

A typed handle keeps no object alive.  Once its object has been collected, whatever is asked of the
handle fails and changes nothing, until an object of the same type is put in the slot that the first
one left.  From then on the handle is a handle of the new object. -/
set_option autoImplicit false

namespace GuestVM.Situation

attribute [local irreducible] Machine.opened

variable {now later gone : Situation} {name : String} {i : Instance} {x : ObjId} {kind : HandleKind}

def KeepsOpen (name : String) : Situation → Move → Prop := fun _ move => move ≠ .close name

/-- A handle of `x` was made in the machine, and its object has been collected. -/
structure Stale (name : String) (kind : HandleKind) (x : ObjId) (gone : Situation) : Prop where
  made : ∃ before i, Run Anything {} before ∧ before.world.instance? name = some i ∧
    i.machine.typeOf (.obj x) = kind.type ∧ Run (KeepsOpen name) before gone
  collected : ∃ i, gone.world.instance? name = some i ∧ ¬ i.machine.Live x

/-- An object that was not there at `gone` has come into the slot, and has been there since. -/
def Succeeded (name : String) (x : ObjId) (gone now : Situation) : Prop :=
  ∃ before after, Run (KeepsOpen name) gone before ∧ ¬ Lives name x before ∧
    Next before (.act name) after ∧ Run (fun s _ => Lives name x s) after now ∧ Lives name x now

theorem present_of_run (run : Run (KeepsOpen name) gone now)
    (before : ∃ i, gone.world.instance? name = some i) :
    ∃ i, now.world.instance? name = some i := by
  induction run with
  | refl => exact before
  | tail _ moved ih =>
      obtain ⟨i, present⟩ := ih
      obtain ⟨move, kept, moved⟩ := moved
      obtain ⟨j, after, -⟩ := moved.onward present kept
      exact ⟨j, after⟩

/-- Only a step of the script that runs in the machine brings an object to life there. -/
theorem succeeded_of_run (run : Run (KeepsOpen name) gone now)
    (dead : ∃ i, gone.world.instance? name = some i ∧ ¬ i.machine.Live x)
    (lives : Lives name x now) : Succeeded name x gone now := by
  obtain ⟨first, there, dead⟩ := dead
  induction run with
  | refl =>
      obtain ⟨i, present, live⟩ := lives
      cases there.symm.trans present
      exact (dead live).elim
  | @tail s s' earlier moved ih =>
      obtain ⟨move, kept, moved⟩ := moved
      by_cases already : Lives name x s
      · obtain ⟨before, after, run, absent, born, since, -⟩ := ih already
        exact ⟨before, after, run, absent, born, .tail since ⟨move, already, moved⟩, lives⟩
      · obtain ⟨i, present⟩ := present_of_run earlier ⟨first, there⟩
        obtain ⟨j, present', live⟩ := lives
        obtain ⟨k, found, -, same | ⟨a, b, rfl, -⟩⟩ := moved.onward present kept
        · cases found.symm.trans present'
          exact (already ⟨i, present, same ▸ live⟩).elim
        · exact ⟨s, s', earlier, already, moved, .refl, j, present', live⟩

/-- The operations of a handle whose object has been collected are refused, or have to write out a
value without end, exactly until an object of the type of the handle is in the slot.  That object
came after the collection, and the operations read and write it, but no other. -/
theorem stale_handles (stale : Stale name kind x gone) (onward : Run (KeepsOpen name) gone now)
    (present : now.world.instance? name = some i) :
    i.machine.Guards x kind ∧
      (i.machine.typeOf (.obj x) = kind.type → Succeeded name x gone now ∧
        ∃ o, i.machine.object? x = some o ∧ i.machine.Serves x o kind) := by
  obtain ⟨before, first, start, -, -, lost⟩ := stale.made
  have anything : ∀ s move, KeepsOpen name s move → Anything s move := fun _ _ _ => trivial
  have run : Run Anything {} now :=
    (start.trans (Run.mono anything lost)).trans (Run.mono anything onward)
  refine ⟨(run.established present).guards x kind, fun typed => ?_⟩
  obtain ⟨o, holds, serves⟩ := Machine.serves_of_typeOf typed
  exact ⟨succeeded_of_run onward stale.collected ⟨i, present, .of_object? holds⟩, o, holds, serves⟩

/-! ## An array in the slot of another -/

/-- Makes an array, has it collected, and makes another one. -/
def recycling : Script :=
  .guest (.arrayNew [.nil]) fun _ =>
    .guest (.arenaRestore 0) fun _ => .guest .collect fun _ => .guest (.arrayNew []) Script.ret

/-- The slot after those that a new machine fills. -/
def recycled : ObjId := ⟨62⟩

theorem recycling_replayed : ∃ a b c,
    carefully 1 ⟨recycling, [], { machine := .opened ⟨1⟩ {} }⟩ = some a ∧
      carefully 2 a = some b ∧ carefully 1 b = some c ∧
      a.stage.machine.typeOf (.obj recycled) = .array ∧ ¬ b.stage.machine.Live recycled ∧
      c.stage.machine.typeOf (.obj recycled) = .array := by
  have replayed : ((carefully 1 ⟨recycling, [], { machine := .opened ⟨1⟩ {} }⟩).any fun a =>
      decide (a.stage.machine.typeOf (.obj recycled) = .array) && (carefully 2 a).any fun b =>
        decide (¬ b.stage.machine.Live recycled) && (carefully 1 b).any fun c =>
          decide (c.stage.machine.typeOf (.obj recycled) = .array)) = true := by
    rw [Machine.opened_eq]
    decide +kernel
  obtain ⟨a, first, made⟩ := (Option.any_eq_true _ _).mp replayed
  obtain ⟨typed, rest⟩ := (Bool.and_eq_true _ _).mp made
  obtain ⟨b, second, lost⟩ := (Option.any_eq_true _ _).mp rest
  obtain ⟨dead, rest⟩ := (Bool.and_eq_true _ _).mp lost
  obtain ⟨c, third, again⟩ := (Option.any_eq_true _ _).mp rest
  exact ⟨a, b, c, first, second, third, of_decide_eq_true typed, of_decide_eq_true dead,
    of_decide_eq_true again⟩

/-- A handle of the first array reads and writes the second. -/
theorem stale_handles_recycled : ∃ gone now i, Stale "vm" .array recycled gone ∧
    Run (KeepsOpen "vm") gone now ∧ now.world.instance? "vm" = some i ∧
      i.machine.Guards recycled .array ∧ Succeeded "vm" recycled gone now ∧
      ∃ o, i.machine.object? recycled = some o ∧ i.machine.Serves recycled o .array := by
  obtain ⟨a, b, c, first, second, third, typed, dead, again⟩ := recycling_replayed
  have run : Run Anything {} _ := (run_carefully_beginning first).mono fun _ _ _ => trivial
  have open_ : ∀ {a b : Scene} {n : Nat}, carefully n a = some b → Run (KeepsOpen "vm")
      ((beginning recycling).showing "vm" { machine := .opened ⟨1⟩ {} } a)
      ((beginning recycling).showing "vm" { machine := .opened ⟨1⟩ {} } b) :=
    fun replayed => run_while (steps_carefully replayed) fun _ may => ⟨may.1, nofun⟩
  have stale : Stale "vm" .array recycled
      ((beginning recycling).showing "vm" { machine := .opened ⟨1⟩ {} } b) :=
    ⟨⟨_, _, run, World.instance?_put_self _, typed, open_ second⟩,
      _, World.instance?_put_self _, dead⟩
  obtain ⟨guards, reused⟩ := stale_handles stale (open_ third) (World.instance?_put_self _)
  obtain ⟨succeeded, serves⟩ := reused again
  exact ⟨_, _, _, stale, open_ third, World.instance?_put_self _, guards, succeeded, serves⟩

end GuestVM.Situation
