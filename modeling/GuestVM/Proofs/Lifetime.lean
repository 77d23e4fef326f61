import GuestVM.Proofs.FrozenData

/-! # What lasts as long as an object

What every step keeps that leaves an object alive is kept for as long as the object lives, whatever
the other machines do meanwhile. -/
set_option autoImplicit false

namespace GuestVM.Situation

variable {now later : Situation} {move : Move} {name : String} {x : ObjId}
  {allowed : Situation → Move → Prop} {P : Machine → Prop}

theorem kept_next (run : Run Anything {} now)
    (step : ∀ a b, allowed now (.act name) → now.scene? name = some a → a.Lawful →
      a.step = some b → a.stage.machine.heap.Tidy → b.stage.machine.Live x →
        P a.stage.machine → P b.stage.machine)
    (holds : ∃ i, now.world.instance? name = some i ∧ P i.machine) (may : allowed now move)
    (moved : Next now move later) (lives : Lives name x later) :
    ∃ i, later.world.instance? name = some i ∧ P i.machine := by
  obtain ⟨i, present, holds⟩ := holds
  obtain ⟨j, present', live⟩ := lives
  have open_ : move ≠ .close name := by
    rintro rfl
    cases moved
    rw [World.instance?_close_self] at present'
    cases present'
  obtain ⟨k, found, -, same | ⟨a, b, rfl, shown, stepped, here, there⟩⟩ :=
    moved.onward present open_
  · exact ⟨k, found, same ▸ holds⟩
  · cases found.symm.trans present'
    refine ⟨j, present', ?_⟩
    rw [there] at live ⊢
    exact step a b may shown (moved.lawful shown) stepped (tidy_of_shown run shown) live (here ▸ holds)

/-- By induction on the run; where the object lived before a move is what the move is allowed for. -/
theorem kept_while_alive
    (step : ∀ now a b, allowed now (.act name) → now.scene? name = some a → a.Lawful →
      a.step = some b → a.stage.machine.heap.Tidy → b.stage.machine.Live x →
        P a.stage.machine → P b.stage.machine)
    (run : Run Anything {} now) (holds : ∃ i, now.world.instance? name = some i ∧ P i.machine)
    (onward : Run (fun s move => allowed s move ∧ Lives name x s) now later)
    (lives : Lives name x later) : ∃ i, later.world.instance? name = some i ∧ P i.machine := by
  induction onward with
  | refl => exact holds
  | tail earlier moved ih =>
      obtain ⟨move, ⟨may, livesBefore⟩, moved⟩ := moved
      have start : Run Anything {} _ := run.trans (Run.mono (fun _ _ _ => trivial) earlier)
      exact kept_next start (step _) (ih livesBefore) may moved lives

end GuestVM.Situation
