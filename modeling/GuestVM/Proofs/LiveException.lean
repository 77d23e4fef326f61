import GuestVM.Proofs.Bridge.Returning
import GuestVM.Proofs.NoDangling

/-! # Which exceptions bridged calls raise

A bridged call raises what its callable returned exactly when that is the current exception.  The
test compares ids, and ids are used again; it is sound since the object in the slot of the current
exception stays alive, as the exception that it was, for as long as the slot names it. -/
set_option autoImplicit false

namespace GuestVM

/-- What holds of the machine at every point of a careful run. -/
structure Machine.Sane (m : Machine) : Prop where
  tidy : m.heap.Tidy
  closed : m.Closed
  rooted : m.Rooted
  current : m.Current

namespace Machine.Sane

theorem of_original {m : Machine} (original : m.Original) : m.Sane where
  tidy := original.tidy
  closed := .of_original original
  rooted := rooted_of_original original
  current := by
    intro id filled
    rw [original.exc] at filled
    cases filled

theorem step {a b : Scene} (sane : a.stage.machine.Sane) (stepped : a.step = some b)
    (handed : ∀ x ∈ a.grant.ids, a.stage.machine.Live x) (lawful : a.Lawful) :
    b.stage.machine.Sane := by
  have evolution := (Scene.step_evolution stepped sane.tidy).1
  obtain ⟨closed, rooted⟩ := evolution.rooted sane.tidy handed sane.closed sane.rooted
  exact ⟨evolution.tidy sane.tidy, closed, rooted,
    Scene.step_current lawful stepped sane.tidy sane.current⟩

end Machine.Sane

namespace Situation

attribute [local irreducible] Machine.opened

def IsCurrent (name : String) (id : ObjId) (message : String) (now : Situation) : Prop :=
  ∃ i, now.world.instance? name = some i ∧ i.machine.exc = some id ∧
    i.machine.HasException id message

variable {now : Situation} {name : String} {i : Instance} {id : ObjId} {message : String}

theorem Run.sane (run : Run Careful {} now) (present : now.world.instance? name = some i) :
    i.machine.Sane := by
  refine Run.machines (P := Machine.Sane) (fun h c => .of_original (Machine.original_opened h c))
    ?_ run present
  intro now name a b careful shown lawful stepped sane
  exact sane.step stepped (careful a shown) lawful

/-- The current exception was made current by a step some time ago, and has been alive and current
ever since. -/
theorem Run.stored (run : Run Careful {} now) (current : IsCurrent name id message now) :
    ∃ before after, Run Careful {} before ∧ (∀ text, ¬ IsCurrent name id text before) ∧
      Careful before (.act name) ∧ Next before (.act name) after ∧
      IsCurrent name id message after ∧
      Run (fun s move => Careful s move ∧ IsCurrent name id message s) after now := by
  induction run with
  | refl =>
      obtain ⟨i, present, -⟩ := current
      cases present
  | tail earlier moved ih =>
      rename_i now later
      obtain ⟨move, careful, moved⟩ := moved
      have onward : IsCurrent name id message now → ∃ before after, Run Careful {} before ∧
          (∀ text, ¬ IsCurrent name id text before) ∧ Careful before (.act name) ∧
          Next before (.act name) after ∧ IsCurrent name id message after ∧
          Run (fun s move => Careful s move ∧ IsCurrent name id message s) after later := by
        intro was
        obtain ⟨before, after, start, fresh, handed, stored, is, since⟩ := ih was
        exact ⟨before, after, start, fresh, handed, stored, is,
          since.tail ⟨move, ⟨careful, was⟩, moved⟩⟩
      obtain ⟨j, present, filled, has⟩ := current
      rcases moved.origin present with ⟨i, was, machine, -⟩ | ⟨config, machine, -⟩ |
        ⟨i, a, b, rfl, was, shown, stepped, here, machine, -⟩
      · rw [machine] at filled has
        exact onward ⟨i, was, filled, has⟩
      · rw [machine, (Machine.original_opened _ _).exc] at filled
        cases filled
      · by_cases before : i.machine.exc = some id
        · have sane := Run.sane earlier was
          obtain ⟨text, had⟩ := sane.current id before
          rw [← here] at before had sane
          have same := Scene.step_keeps_exception (moved.lawful shown) stepped sane.tidy before had
          rw [machine] at has
          have text_eq : text = message := by
            obtain ⟨o, present, body⟩ := same
            obtain ⟨p, present', body'⟩ := has
            cases present.symm.trans present'
            cases body.symm.trans body'
            rfl
          subst text_eq
          rw [here] at before had
          exact onward ⟨i, was, before, had⟩
        · refine ⟨now, later, earlier, ?_, careful, moved, ⟨j, present, filled, has⟩, .refl⟩
          intro text given
          obtain ⟨k, found, current, -⟩ := given
          rw [was] at found
          cases found
          exact before current

end Situation

end GuestVM
