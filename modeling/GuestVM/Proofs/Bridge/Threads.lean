import GuestVM.Bridge.Threads
import GuestVM.Proofs.Bridge.Events

/-! # Turns at the bridge

However threads take turns at the bridge, the registry stays sound.  The invariant has to say of an
index on its way back that nobody holds it and that it is not yet among the free ones: between the
removal of a row and the release it is in neither place. -/
set_option autoImplicit false

namespace GuestVM

/-! ## Atomic steps of the registry -/

namespace IndexAllocator

variable {a : IndexAllocator}

/-- An index that was given out and is not free is not given out again. -/
theorem allocate_ne {i : Nat} (below : i < a.next) (unfree : i ∉ a.freed) : a.allocate.1 ≠ i := by
  rcases a.allocate_cases with fresh | ⟨j, rest, free, same⟩
  · rw [fresh]
    exact Nat.ne_of_gt below
  · rw [same]
    intro again
    exact unfree (free ▸ again ▸ List.mem_cons_self)

end IndexAllocator

namespace Registry

variable {r : Registry} {h other : Handle} {i : Nat}

theorem enrol_eq_register (r : Registry) (h : Handle) : r.enrol h = r.register h := by
  unfold register
  cases found : r.find h with
  | some i => simp [enrol, found]
  | none => rfl

@[simp] theorem find_withdraw_self : (r.withdraw h).2.find h = none :=
  lookup_without_self r.rows h

theorem find_withdraw_of_ne (apart : other ≠ h) : (r.withdraw h).2.find other = r.find other :=
  lookup_without_of_ne r.rows apart

theorem find_of_withdraw (held : (r.withdraw h).2.find other = some i) :
    other ≠ h ∧ r.find other = some i := by
  have apart : other ≠ h := by
    intro same
    rw [same, find_withdraw_self] at held
    cases held
  exact ⟨apart, (find_withdraw_of_ne apart).symm.trans held⟩

theorem find_register_of_found (held : r.find other = some i) :
    (r.register h).2.find other = some i := by
  by_cases same : other = h
  · subst same
    rw [register_of_found held]
    exact held
  · exact (find_register_of_ne same).trans held

/-- An index that has been given out, that nobody holds and that is not free. -/
structure Away (r : Registry) (i : Nat) : Prop where
  proper : i ≠ 0
  below : i < r.allocator.next
  unfree : i ∉ r.allocator.freed
  unheld : ∀ h, r.find h ≠ some i

namespace Sound

theorem withdraw (sound : r.Sound) (h : Handle) : (r.withdraw h).2.Sound where
  apart := by
    intro x y j first second
    exact sound.apart x y j (find_of_withdraw first).2 (find_of_withdraw second).2
  given := by
    intro x j held
    exact sound.given x j (find_of_withdraw held).2
  freed := sound.freed
  ascending := sound.ascending
  started := sound.started

theorem away_of_withdraw (sound : r.Sound) (held : r.find h = some i) :
    (r.withdraw h).2.Away i := by
  obtain ⟨proper, below, unfree⟩ := sound.given h i held
  refine ⟨proper, below, unfree, ?_⟩
  intro x still
  obtain ⟨apart, also⟩ := find_of_withdraw still
  exact apart (sound.apart x h i also held)

theorem release (sound : r.Sound) (away : r.Away i) : (r.release i).Sound where
  apart := sound.apart
  given := by
    intro x j held
    obtain ⟨proper, below, unfree⟩ := sound.given x j held
    refine ⟨proper, (IndexAllocator.next_release i).symm ▸ below, ?_⟩
    intro free
    rcases IndexAllocator.freed_release free with same | before
    · exact away.unheld x (same ▸ held)
    · exact unfree before
  freed := by
    intro j free
    refine (IndexAllocator.next_release i).symm ▸ ?_
    rcases IndexAllocator.freed_release free with same | before
    · exact same ▸ ⟨away.proper, away.below⟩
    · exact sound.freed j before
  ascending := IndexAllocator.ascending_release i sound.ascending
  started := (IndexAllocator.next_release i).symm ▸ sound.started

end Sound

namespace Away

theorem register (away : r.Away i) (sound : r.Sound) (h : Handle) : (r.register h).2.Away i := by
  cases found : r.find h with
  | some j => rwa [register_of_found found]
  | none =>
      have allocated : (r.register h).2.allocator = r.allocator.allocate.2 := by
        rw [register_of_missing found]
      refine ⟨away.proper, ?_, ?_, ?_⟩
      · rw [allocated]
        exact Nat.lt_of_lt_of_le away.below r.allocator.next_le_allocate
      · rw [allocated]
        intro free
        have before := IndexAllocator.freed_allocate sound.ascending
          (fun j free => (sound.freed j free).2) free
        exact away.unfree before.1
      · intro x held
        rcases find_of_register found held with ⟨-, same⟩ | before
        · exact IndexAllocator.allocate_ne away.below away.unfree same.symm
        · exact away.unheld x before

theorem withdraw (away : r.Away i) (h : Handle) : (r.withdraw h).2.Away i :=
  ⟨away.proper, away.below, away.unfree, fun x held => away.unheld x (find_of_withdraw held).2⟩

theorem release (away : r.Away i) {j : Nat} (apart : i ≠ j) : (r.release j).Away i := by
  refine ⟨away.proper, (IndexAllocator.next_release j).symm ▸ away.below, ?_, away.unheld⟩
  intro free
  rcases IndexAllocator.freed_release free with same | before
  · exact apart same
  · exact away.unfree before

end Away

end Registry

namespace Threads

/-! ## A thread alone -/

section Alone

variable {s : Threads} {t : Nat}

@[simp] theorem tasks_setTask_self (task : Task) : (s.setTask t task).tasks t = task := if_pos rfl

theorem tasks_setTask_of_ne {task : Task} {u : Nat} (apart : u ≠ t) :
    (s.setTask t task).tasks u = s.tasks u := if_neg apart

@[simp] theorem tasks_registered_self {h : Handle} {opening : Bool} {i : Nat} :
    (s.registered t h opening i).tasks t = .done (some i) := if_pos rfl

theorem onward_done {answer : Option Nat} (rests : s.tasks t = .done answer) : s.onward t = s := by
  simp only [onward, rests]

/-- A registration that nobody interrupts takes two steps at most. -/
theorem registers_alone {h : Handle} {opening : Bool} (task : s.tasks t = .seek h opening) :
    ((s.onward t).onward t).bridge =
        { s.bridge with registry := (s.bridge.registry.register h).2 } ∧
      ((s.onward t).onward t).tasks t = .done (some (s.bridge.registry.register h).1) := by
  cases found : s.bridge.registry.find h with
  | some i =>
      have once : s.onward t = s.registered t h opening i := by
        simp only [onward, task, index?, found]
      rw [once, onward_done tasks_registered_self, Registry.register_of_found found]
      exact ⟨rfl, tasks_registered_self⟩
  | none =>
      have once : s.onward t = s.setTask t (.enrol h opening) := by
        simp only [onward, task, index?, found]
      rw [once, ← Registry.enrol_eq_register]
      simp only [onward, tasks_setTask_self]
      exact ⟨rfl, tasks_registered_self⟩

theorem unregisters_alone {h : Handle} (task : s.tasks t = .withdraw h) :
    ((s.onward t).onward t).bridge =
        { s.bridge with registry := (s.bridge.registry.unregister h).2 } ∧
      ((s.onward t).onward t).tasks t = .done (s.bridge.registry.unregister h).1 := by
  cases found : s.bridge.registry.find h with
  | some i =>
      have once : s.onward t =
          (s.setRegistry (s.bridge.registry.withdraw h).2).setTask t (.release i) := by
        simp only [onward, task, Registry.withdraw, found]
      rw [once, Registry.unregister_of_found found]
      simp only [onward, tasks_setTask_self]
      exact ⟨rfl, trivial⟩
  | none =>
      have once : s.onward t =
          (s.setRegistry (s.bridge.registry.withdraw h).2).setTask t (.done none) := by
        simp only [onward, task, Registry.withdraw, found]
      rw [once, onward_done (tasks_setTask_self _)]
      simp only [Registry.unregister, Registry.withdraw, found]
      exact ⟨rfl, tasks_setTask_self _⟩

/-- A linked machine that is closed without interruption leaves the bridge as `unlink` does. -/
theorem closes_alone {i : Instance} {k : Nat} (link : i.link = some k)
    (task : s.tasks t = .drop i.machine.handle k) :
    (((s.onward t).onward t).onward t).bridge = World.unlink s.bridge i := by
  have once : s.onward t =
      (s.setTables (s.bridge.tables.drop k)).setTask t (.withdraw i.machine.handle) := by
    simp only [onward, task]
  have next : (s.onward t).tasks t = .withdraw i.machine.handle := by
    rw [once]
    exact tasks_setTask_self _
  rw [(unregisters_alone next).1, once, World.unlink, link]
  rfl

end Alone

/-! ## Runs -/

/-- Threads take steps in any order. -/
abbrev Run (allowed : Threads → Nat → Move → Prop) : Threads → Threads → Prop :=
  Relation.ReflTransGen fun s s' => ∃ t move, allowed s t move ∧ s.step t move = some s'

def Anything : Threads → Nat → Move → Prop := fun _ _ _ => True

/-- The row of a machine is not removed. -/
def Keeps (h : Handle) (s : Threads) (t : Nat) (move : Move) : Prop :=
  move = .onward → s.tasks t ≠ .withdraw h

/-- Nobody unregisters a machine but by closing it. -/
def OnlyCloses (_ : Threads) (_ : Nat) (move : Move) : Prop :=
  ∀ h, move ≠ .setOut (.unregister h)

variable {s s' : Threads} {t : Nat} {move : Move}

theorem step_cases (stepped : s.step t move = some s') :
    (∃ e answer, move = .setOut e ∧ s.tasks t = .done answer ∧ s.setOut t e = some s') ∨
      (move = .onward ∧ s' = s.onward t) := by
  unfold step at stepped
  split at stepped
  case h_1 answer e rests => exact .inl ⟨e, answer, rfl, rests, stepped⟩
  case h_2 => cases stepped
  case h_3 => exact .inr ⟨rfl, (Option.some.inj stepped).symm⟩
  case h_4 => cases stepped

/-! ## The invariant -/

/-- The registry is sound, and every index on its way back is away, with one thread only. -/
structure Sound (s : Threads) : Prop where
  registry : s.bridge.registry.Sound
  away : ∀ t i, s.tasks t = .release i → s.bridge.registry.Away i
  once : ∀ t u i, s.tasks t = .release i → s.tasks u = .release i → t = u

namespace Sound

theorem empty : Sound {} := ⟨.empty, nofun, nofun⟩

/-- Another registry, in which what is on its way back is still away, and another task that brings
back no index. -/
theorem update {r : Registry} {task : Task} (sound : s.Sound) (after : s'.bridge.registry = r)
    (tasks : s'.tasks = (s.setTask t task).tasks) (quiet : ∀ i, task ≠ .release i)
    (registry : r.Sound)
    (away : ∀ u i, u ≠ t → s.tasks u = .release i → r.Away i) : s'.Sound := by
  have other : ∀ u i, s'.tasks u = .release i → u ≠ t ∧ s.tasks u = .release i := by
    intro u i releases
    rw [tasks] at releases
    have apart : u ≠ t := by
      intro same
      subst same
      rw [tasks_setTask_self] at releases
      exact quiet i releases
    exact ⟨apart, (tasks_setTask_of_ne apart).symm.trans releases⟩
  subst after
  refine ⟨registry, ?_, ?_⟩
  · intro u i releases
    obtain ⟨apart, before⟩ := other u i releases
    exact away u i apart before
  · intro u v i first second
    exact sound.once u v i (other u i first).2 (other v i second).2

theorem setTask {task : Task} (sound : s.Sound) (quiet : ∀ i, task ≠ .release i) :
    (s.setTask t task).Sound :=
  sound.update rfl rfl quiet sound.registry fun u i _ releases => sound.away u i releases

theorem setOut {e : Errand} (sound : s.Sound) (set : s.setOut t e = some s') : s'.Sound := by
  cases e with
  | openBare h =>
      simp only [Threads.setOut] at set
      split at set
      · cases set
      · cases set
        exact ⟨sound.registry, sound.away, sound.once⟩
  | openLinked h =>
      simp only [Threads.setOut] at set
      split at set
      · cases set
      · cases set
        have quiet : ∀ i, Task.seek h true ≠ .release i := by simp
        exact sound.update rfl rfl quiet sound.registry
          fun u i _ releases => sound.away u i releases
  | close h =>
      obtain ⟨k, -, rfl⟩ := Option.map_eq_some_iff.mp set
      have quiet : ∀ i, Task.drop h k ≠ .release i := by simp
      exact sound.update rfl rfl quiet sound.registry fun u i _ releases => sound.away u i releases
  | register h | unregister h =>
      simp only [Threads.setOut] at set
      split at set
      · cases set
        exact sound.setTask (by simp)
      · cases set
  | gain index c aspec =>
      cases set
      exact ⟨sound.registry, sound.away, sound.once⟩
  | lose index function =>
      cases set
      exact ⟨sound.registry, sound.away, sound.once⟩

theorem onward (sound : s.Sound) (t : Nat) : (s.onward t).Sound := by
  cases task : s.tasks t with
  | done answer => rwa [onward_done task]
  | seek h opening =>
      simp only [Threads.onward, task]
      split
      · exact sound.update rfl rfl (by simp) sound.registry
          fun u i _ releases => sound.away u i releases
      · exact sound.setTask (by simp)
  | enrol h opening =>
      simp only [Threads.onward, task, Registry.enrol_eq_register]
      exact sound.update rfl rfl (by simp) (sound.registry.register h)
        fun u i _ releases => (sound.away u i releases).register sound.registry h
  | drop h index =>
      simp only [Threads.onward, task]
      exact sound.update rfl rfl (by simp) sound.registry fun u i _ releases => sound.away u i releases
  | withdraw h =>
      have others : ∀ u i, s.tasks u = .release i → (s.bridge.registry.withdraw h).2.Away i :=
        fun u i releases => (sound.away u i releases).withdraw h
      cases found : s.bridge.registry.find h with
      | none =>
          simp only [Threads.onward, task, Registry.withdraw, found]
          exact sound.update rfl rfl (by simp) (sound.registry.withdraw h)
            fun u i _ releases => others u i releases
      | some k =>
          simp only [Threads.onward, task, Registry.withdraw, found]
          -- The index that leaves its row is nobody's, and was on its way back with no other thread.
          have leaves := sound.registry.away_of_withdraw found
          have alone : ∀ u, s.tasks u ≠ .release k :=
            fun u releases => (sound.away u k releases).unheld h found
          constructor
          · exact sound.registry.withdraw h
          · intro u i releases
            by_cases same : u = t
            · subst same
              rw [tasks_setTask_self] at releases
              cases releases
              exact leaves
            · rw [tasks_setTask_of_ne same] at releases
              exact others u i releases
          · intro u v i first second
            by_cases here : u = t
            · by_cases there : v = t
              · exact here.trans there.symm
              · subst here
                rw [tasks_setTask_self] at first
                rw [tasks_setTask_of_ne there] at second
                cases first
                exact (alone v second).elim
            · rw [tasks_setTask_of_ne here] at first
              by_cases there : v = t
              · subst there
                rw [tasks_setTask_self] at second
                cases second
                exact (alone u first).elim
              · rw [tasks_setTask_of_ne there] at second
                exact sound.once u v i first second
  | release index =>
      simp only [Threads.onward, task]
      refine sound.update rfl rfl (by simp) (sound.registry.release (sound.away t index task)) ?_
      intro u i apart releases
      refine (sound.away u i releases).release ?_
      intro same
      subst same
      exact apart (sound.once u t i releases task)

theorem step (sound : s.Sound) (stepped : s.step t move = some s') : s'.Sound := by
  rcases step_cases stepped with ⟨e, -, -, -, set⟩ | ⟨-, rfl⟩
  · exact sound.setOut set
  · exact sound.onward t

theorem run {allowed : Threads → Nat → Move → Prop} (sound : s.Sound) (run : Run allowed s s') :
    s'.Sound := by
  induction run with
  | refl => exact sound
  | tail _ stepped ih =>
      obtain ⟨t, move, -, stepped⟩ := stepped
      exact ih.step stepped

end Sound

/-! ## An index stays -/

/-- Only the removal of its row takes an index from a machine. -/
theorem index?_step {h : Handle} {k : Nat} (held : s.index? h = some k)
    (stepped : s.step t move = some s') (keeps : Keeps h s t move) : s'.index? h = some k := by
  rcases step_cases stepped with ⟨e, answer, -, -, set⟩ | ⟨rfl, rfl⟩
  · cases e with
    | close x =>
        obtain ⟨i, -, rfl⟩ := Option.map_eq_some_iff.mp set
        exact held
    | gain => cases set; exact held
    | lose => cases set; exact held
    | _ =>
        simp only [setOut] at set
        split at set <;> cases set
        exact held
  · have elsewhere := keeps rfl
    cases task : s.tasks t with
    | done answer => rwa [onward_done task]
    | seek x opening =>
        simp only [onward, task]
        split <;> exact held
    | enrol x opening =>
        simp only [onward, task, Registry.enrol_eq_register]
        exact Registry.find_register_of_found held
    | drop x index =>
        simp only [onward, task]
        exact held
    | withdraw x =>
        have apart : h ≠ x := by
          intro same
          exact elsewhere (same ▸ task)
        have still := (Registry.find_withdraw_of_ne apart).trans held
        simp only [onward, task]
        split
        case h_1 found => rw [found] at still; exact still
        case h_2 found => rw [found] at still; exact still
    | release index =>
        simp only [onward, task]
        exact held

theorem index?_run {h : Handle} {k : Nat} (held : s.index? h = some k)
    (run : Run (Keeps h) s s') : s'.index? h = some k := by
  induction run with
  | refl => exact held
  | tail _ stepped ih =>
      obtain ⟨t, move, keeps, stepped⟩ := stepped
      exact index?_step ih stepped keeps

/-- The step that ends a registration of a machine answers the index that it has. -/
theorem answers_index {h : Handle} {k : Nat} {opening : Bool} (held : s.index? h = some k)
    (task : s.tasks t = .seek h opening ∨ s.tasks t = .enrol h opening) :
    (s.onward t).tasks t = .done (some k) := by
  have found : s.bridge.registry.find h = some k := held
  rcases task with task | task
  · simp only [onward, task, held]
    exact tasks_setTask_self _
  · simp only [onward, task, Registry.enrol, found]
    exact tasks_setTask_self _

end Threads

end GuestVM
