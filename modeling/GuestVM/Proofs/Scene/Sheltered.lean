import GuestVM.Proofs.Bridge.Events
import GuestVM.Proofs.Scene.Current
import GuestVM.Proofs.Scene.Turn

/-! # What is kept on the arena

An object on the arena is a root, so it stays alive until the arena is cut back below its place.
Nothing but a request for it does that: operations that cut the arena cut off what they have put
there themselves. -/
set_option autoImplicit false

namespace GuestVM

/-- An object is alive, and a place of the arena names it. -/
structure Machine.Shelters (m : Machine) (place : Nat) (id : ObjId) : Prop where
  placed : m.heap.arena[place]? = some id
  live : m.Live id

/-- What is on an arena has its place on a longer one. -/
theorem Heap.placed_of_prefix {h h' : Heap} {place : Nat} {id : ObjId}
    (longer : h.arena.toList <+: h'.arena.toList) (placed : h.arena[place]? = some id) :
    h'.arena[place]? = some id := by
  rw [← Array.getElem?_toList] at placed ⊢
  obtain ⟨tail, whole⟩ := longer
  obtain ⟨within, -⟩ := List.getElem?_eq_some_iff.mp placed
  rw [← whole, List.getElem?_append_left within]
  exact placed

theorem Heap.prefix_of_placed {h h' : Heap}
    (placed : ∀ (place : Nat) (id : ObjId), h.arena[place]? = some id → h'.arena[place]? = some id) :
    h.arena.toList <+: h'.arena.toList := by
  rw [List.prefix_iff_getElem?]
  intro place within
  rw [Array.getElem?_toList]
  exact placed place _ (by simp)

theorem Stage.arena_unshield (depth : Nat) (r : Except Raised Value) (m : Machine) :
    m.heap.arena.toList <+: (unshield depth r m).heap.arena.toList := by
  cases r with
  | ok v => exact List.prefix_rfl
  | error e =>
      cases object : e.value.asObj <;>
        simp [unshield, Machine.unwound, object, Heap.arenaPush]

namespace Scene

variable {a b : Scene} {place : Nat} {id : ObjId}

/-- The step cuts the arena back to a place or below it. -/
def CutsTo (place : Nat) (a : Scene) : Prop :=
  ∃ mark next, a.script = .guest (.arenaRestore mark) next ∧ mark ≤ place

theorem step_placed (stepped : a.step = some b) (tidy : a.stage.machine.heap.Tidy)
    (uncut : ¬ a.CutsTo place) (placed : a.stage.machine.heap.arena[place]? = some id) :
    b.stage.machine.heap.arena[place]? = some id := by
  cases turn_of_step stepped tidy with
  | acts did => exact Heap.placed_of_prefix did.steady.arena placed
  | cuts mark next script machine =>
      have below : place < mark := by
        by_contra above
        exact uncut ⟨mark, next, script, by omega⟩
      rw [machine]
      change (a.stage.machine.heap.arena.take mark)[place]? = some id
      grind
  | clears next script machine =>
      rw [machine]
      exact placed
  | enters f m next did machine =>
      rw [machine]
      exact Heap.placed_of_prefix did.steady.arena placed
  | shields next machine =>
      rw [machine]
      exact placed
  | hosts discipline next did => exact Heap.placed_of_prefix did.steady.arena placed
  | setsOff walk m did machine =>
      rw [machine]
      exact Heap.placed_of_prefix did.steady.arena placed
  | returns depth next o m did script machine =>
      rw [machine]
      exact Heap.placed_of_prefix did.steady.arena placed
  | unshields depth next o r m did script passed machine =>
      rw [machine]
      exact Heap.placed_of_prefix (Stage.arena_unshield depth r m)
        (Heap.placed_of_prefix did.steady.arena placed)
  | handsOn discipline next o did => exact Heap.placed_of_prefix did.steady.arena placed
  | visits walk onward rest o did => exact Heap.placed_of_prefix did.steady.arena placed
  | arrives walk o m did script machine =>
      rw [machine]
      exact Heap.placed_of_prefix did.steady.arena placed

theorem step_shelters (stepped : a.step = some b) (tidy : a.stage.machine.heap.Tidy)
    (uncut : ¬ a.CutsTo place) (shelters : a.stage.machine.Shelters place id) :
    b.stage.machine.Shelters place id := by
  refine ⟨step_placed stepped tidy uncut shelters.placed, ?_⟩
  cases sweeps : a.grant.sweeps with
  | false => exact (step_evolution stepped tidy).1.live tidy sweeps shelters.live
  | true =>
      obtain ⟨next, script⟩ := script_of_sweeps sweeps
      rw [machine_of_collect script stepped]
      obtain ⟨o, present⟩ := shelters.live.object?
      have member := List.mem_of_getElem? (Array.getElem?_toList.trans shelters.placed)
      exact .of_object? (Heap.get?_collect_of_root present (.inr member))

end Scene

namespace Situation

attribute [local irreducible] Machine.opened

variable {now later : Situation} {name : String} {place : Nat} {id : ObjId}
  {allowed : Situation → Move → Prop}

/-- The machine stays open and its arena is not cut back to a place. -/
def Sheltering (name : String) (place : Nat) (now : Situation) (move : Move) : Prop :=
  move ≠ .close name ∧ (move = .act name → ∀ a, now.scene? name = some a → ¬ a.CutsTo place)

def Sheltered (name : String) (place : Nat) (id : ObjId) (now : Situation) : Prop :=
  ∃ i, now.world.instance? name = some i ∧ i.machine.Shelters place id

theorem sheltered_run (run : Run Anything {} now) (sheltered : Sheltered name place id now)
    (onward : Run (Sheltering name place) now later) :
    Run Anything {} later ∧ Sheltered name place id later := by
  refine kept_of_run (P := (·.Shelters place id)) (fun _ _ may => may.1) ?_ run sheltered onward
  intro now a b may shown _ stepped tidy shelters
  exact Scene.step_shelters stepped tidy (may.2 rfl a shown) shelters

end Situation

end GuestVM
