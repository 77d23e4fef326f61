import GuestVM.Proofs.Bridge.Threads

/-! # Indices under concurrency

In every interleaving of threads the machines that are registered have indices of their own, and
keep them until their rows are removed.  Where indices are given up only by closing, the table that
closing a machine drops is still the table of that machine: the row is removed after the drop, and
the index released after the removal. -/
set_option autoImplicit false

namespace GuestVM.Threads

variable {s s' : Threads} {t : Nat}

/-! ## Only closing -/

/-- A thread is opening or closing a linked machine; withdrawing counts where only closing
unregisters. -/
def Handles (s : Threads) (t : Nat) (h : Handle) : Prop :=
  s.tasks t = .seek h true ∨ s.tasks t = .enrol h true ∨ (∃ k, s.tasks t = .drop h k) ∨
    s.tasks t = .withdraw h

/-- Where only closing unregisters, a linked machine has the index that it remembers until its own
closing has come to the removal of its row. -/
structure Owned (s : Threads) : Prop where
  handed : ∀ t h, s.Handles t h → h ∈ s.handles
  alone : ∀ t u h, s.Handles t h → s.Handles u h → t = u
  linked : ∀ h k, (h, k) ∈ s.links →
    h ∈ s.handles ∧ s.index? h = some k ∧ ∀ t, ¬ s.Handles t h
  dropping : ∀ t h k, s.tasks t = .drop h k → s.index? h = some k

/-- The machine that a task opens or closes. -/
def machineOf : Task → Option Handle
  | .seek h true | .enrol h true | .drop h _ | .withdraw h => some h
  | .seek _ false | .enrol _ false | .done _ | .release _ => none

theorem handles_iff {task : Task} {h : Handle} (busy : s.tasks t = task) :
    s.Handles t h ↔ machineOf task = some h := by
  unfold Handles
  rw [busy]
  cases task with
  | seek x opening => cases opening <;> simp [machineOf]
  | enrol x opening => cases opening <;> simp [machineOf]
  | _ => simp [machineOf]

theorem handles_congr {u v : Nat} {h : Handle} (same : s'.tasks u = s.tasks v) :
    s'.Handles u h ↔ s.Handles v h := by
  unfold Handles
  rw [same]

namespace Owned

theorem empty : Owned {} where
  handed := by
    intro t h handles
    cases (handles_iff rfl).mp handles
  alone := by
    intro t u h handles
    cases (handles_iff rfl).mp handles
  linked := by
    intro h k member
    cases member
  dropping := by
    intro t h k task
    cases task

/-- One thread gets another task.  What it then handles no other thread may handle, indices that are
remembered stay, and a machine that comes to be linked has its index. -/
theorem update {task : Task} (owned : s.Owned) (tasks : s'.tasks = (s.setTask t task).tasks)
    (handles : ∀ h ∈ s.handles, h ∈ s'.handles)
    (free : ∀ h, machineOf task = some h → h ∈ s'.handles ∧ ∀ u, u ≠ t → ¬ s.Handles u h)
    (held : ∀ h k, (∀ u, s.Handles u h → u ≠ t) → s.index? h = some k → s'.index? h = some k)
    (dropped : ∀ h k, task = .drop h k → s'.index? h = some k)
    (links : ∀ h k, (h, k) ∈ s'.links → machineOf task ≠ some h ∧ ((h, k) ∈ s.links ∨
      (h ∈ s'.handles ∧ s'.index? h = some k ∧ ∀ u, u ≠ t → ¬ s.Handles u h))) : s'.Owned := by
  have there : ∀ u, u ≠ t → ∀ h, s'.Handles u h ↔ s.Handles u h := by
    intro u apart h
    apply handles_congr
    rw [tasks, tasks_setTask_of_ne apart]
  have here : ∀ h, s'.Handles t h ↔ machineOf task = some h := by
    intro h
    apply handles_iff
    rw [tasks, tasks_setTask_self]
  constructor
  · intro u h handled
    by_cases same : u = t
    · subst same
      exact (free h ((here h).mp handled)).1
    · exact handles h (owned.handed u h ((there u same h).mp handled))
  · intro u v h first second
    by_cases mine : u = t
    · by_cases same : v = t
      · exact mine.trans same.symm
      · subst mine
        exact ((free h ((here h).mp first)).2 v same ((there v same h).mp second)).elim
    · by_cases same : v = t
      · subst same
        exact ((free h ((here h).mp second)).2 u mine ((there u mine h).mp first)).elim
      · exact owned.alone u v h ((there u mine h).mp first) ((there v same h).mp second)
  · intro h k member
    obtain ⟨quiet, linked⟩ := links h k member
    have facts : h ∈ s'.handles ∧ s'.index? h = some k ∧ ∀ u, u ≠ t → ¬ s.Handles u h := by
      rcases linked with before | new
      · obtain ⟨given, has, unhandled⟩ := owned.linked h k before
        exact ⟨handles h given, held h k (fun u handled => (unhandled u handled).elim) has,
          fun u _ => unhandled u⟩
      · exact new
    refine ⟨facts.1, facts.2.1, ?_⟩
    intro u handled
    by_cases same : u = t
    · subst same
      exact quiet ((here h).mp handled)
    · exact facts.2.2 u same ((there u same h).mp handled)
  · intro u h k drops
    rw [tasks] at drops
    by_cases same : u = t
    · subst same
      rw [tasks_setTask_self] at drops
      exact dropped h k drops
    · rw [tasks_setTask_of_ne same] at drops
      refine held h k ?_ (owned.dropping u h k drops)
      intro v handled same'
      subst same'
      exact same (owned.alone u v h (.inr (.inr (.inl ⟨k, drops⟩))) handled)

/-- Handing out a handle, or changing the tables, concerns no machine that is there. -/
theorem of_same (owned : s.Owned) (tasks : s'.tasks = s.tasks) (links : s'.links = s.links)
    (registry : s'.bridge.registry = s.bridge.registry)
    (handles : ∀ h ∈ s.handles, h ∈ s'.handles) : s'.Owned := by
  have same : ∀ u h, s'.Handles u h ↔ s.Handles u h :=
    fun u h => handles_congr (congrFun tasks u)
  have index : ∀ h, s'.index? h = s.index? h := by
    intro h
    rw [index?, registry]
    rfl
  constructor
  · intro t h handled
    exact handles h (owned.handed t h ((same t h).mp handled))
  · intro t u h first second
    exact owned.alone t u h ((same t h).mp first) ((same u h).mp second)
  · intro h k member
    rw [links] at member
    obtain ⟨given, has, unhandled⟩ := owned.linked h k member
    exact ⟨handles h given, (index h).trans has,
      fun t handled => unhandled t ((same t h).mp handled)⟩
  · intro t h k drops
    rw [tasks] at drops
    exact (index h).trans (owned.dropping t h k drops)

theorem setOut {e : Errand} (owned : s.Owned) (set : s.setOut t e = some s')
    (closes : ∀ h, e ≠ .unregister h) : s'.Owned := by
  cases e with
  | openBare h =>
      simp only [Threads.setOut] at set
      split at set <;> cases set
      exact owned.of_same rfl rfl rfl fun x given => List.mem_cons_of_mem h given
  | openLinked h =>
      simp only [Threads.setOut] at set
      split at set <;> cases set
      rename_i fresh
      refine owned.update rfl (fun x given => List.mem_cons_of_mem h given) ?_
        (fun x k _ has => has) (by simp) ?_
      · intro x handled
        cases handled
        exact ⟨List.mem_cons_self, fun u _ also => fresh (owned.handed u h also)⟩
      · intro x k member
        refine ⟨?_, .inl member⟩
        intro handled
        cases handled
        exact fresh (owned.linked h k member).1
  | close h =>
      obtain ⟨k, found, rfl⟩ := Option.map_eq_some_iff.mp set
      obtain ⟨given, has, unhandled⟩ := owned.linked h k (mem_of_lookup found)
      refine owned.update rfl (fun x given => given) ?_ (fun x j _ has => has) ?_ ?_
      · intro x handled
        cases handled
        exact ⟨given, fun u _ => unhandled u⟩
      · intro x j drops
        cases drops
        exact has
      · intro x j member
        obtain ⟨before, apart⟩ := List.mem_filter.mp member
        refine ⟨?_, .inl before⟩
        intro handled
        cases handled
        simp at apart
  | register h =>
      simp only [Threads.setOut] at set
      split at set <;> cases set
      have bare : ∀ x, machineOf (.seek h false) ≠ some x := by simp [machineOf]
      exact owned.update rfl (fun x given => given) (fun x handled => (bare x handled).elim)
        (fun x k _ has => has) (by simp) fun x k member => ⟨bare x, .inl member⟩
  | unregister h => exact (closes h rfl).elim
  | gain index c aspec =>
      cases set
      exact owned.of_same rfl rfl rfl fun x given => given
  | lose index function =>
      cases set
      exact owned.of_same rfl rfl rfl fun x given => given

/-- A registration ends: a linked machine that was being opened remembers the index it has got. -/
theorem registered {r : Registry} {h : Handle} {opening : Bool} {i : Nat} (owned : s.Owned)
    (task : s.tasks t = .seek h opening ∨ s.tasks t = .enrol h opening)
    (kept : ∀ x k, s.index? x = some k → r.find x = some k) (has : r.find h = some i) :
    ((s.setRegistry r).registered t h opening i).Owned := by
  have rests : ∀ x, machineOf (.done (some i)) ≠ some x := by simp [machineOf]
  refine owned.update rfl (fun x given => given) (fun x handled => (rests x handled).elim)
    (fun x k _ was => kept x k was) (by simp) fun x k member => ⟨rests x, ?_⟩
  cases opening with
  | false => exact .inl member
  | true =>
      rcases List.mem_cons.mp member with same | before
      · cases same
        have handled : s.Handles t h := by
          rcases task with task | task
          · exact .inl task
          · exact .inr (.inl task)
        exact .inr ⟨owned.handed t h handled, has,
          fun u apart also => apart (owned.alone u t h also handled)⟩
      · exact .inl before

/-- A thread goes on with a task that handles nothing new, and nothing new is linked. -/
theorem goesOn {now next : Task} (owned : s.Owned) (busy : s.tasks t = now)
    (tasks : s'.tasks = (s.setTask t next).tasks) (handles : s'.handles = s.handles)
    (links : s'.links = s.links) (fewer : ∀ h, machineOf next = some h → machineOf now = some h)
    (undropped : ∀ h k, next ≠ .drop h k)
    (held : ∀ h k, (∀ u, s.Handles u h → u ≠ t) → s.index? h = some k → s'.index? h = some k) :
    s'.Owned := by
  have before : ∀ h, machineOf next = some h → s.Handles t h :=
    fun h handled => (handles_iff busy).mpr (fewer h handled)
  refine owned.update tasks (fun x given => handles ▸ given) ?_ held
    (fun h k drops => (undropped h k drops).elim) ?_
  · intro h handled
    exact ⟨handles ▸ owned.handed t h (before h handled),
      fun u apart also => apart (owned.alone u t h also (before h handled))⟩
  · intro h k member
    rw [links] at member
    exact ⟨fun handled => (owned.linked h k member).2.2 t (before h handled), .inl member⟩

theorem onward (owned : s.Owned) (t : Nat) : (s.onward t).Owned := by
  cases task : s.tasks t with
  | done answer => rwa [onward_done task]
  | seek h opening =>
      simp only [Threads.onward, task]
      split
      case h_1 i found =>
          exact owned.registered (.inl task) (fun x k was => was) found
      case h_2 missing =>
          refine owned.goesOn task rfl rfl rfl (fun x handled => ?_) (by simp) fun x k _ was => was
          cases opening <;> exact handled
  | enrol h opening =>
      simp only [Threads.onward, task, Registry.enrol_eq_register]
      exact owned.registered (.inr task) (fun x k was => Registry.find_register_of_found was)
        Registry.find_register_self
  | drop h index =>
      simp only [Threads.onward, task]
      exact owned.goesOn task rfl rfl rfl (fun x handled => handled) (by simp) fun x k _ was => was
  | withdraw h =>
      have kept : ∀ x k, (∀ u, s.Handles u x → u ≠ t) → s.index? x = some k →
          (s.bridge.registry.withdraw h).2.find x = some k := by
        intro x k elsewhere was
        have apart : x ≠ h := by
          intro same
          subst same
          exact elsewhere t (.inr (.inr (.inr task))) rfl
        exact (Registry.find_withdraw_of_ne apart).trans was
      simp only [Threads.onward, task]
      split
      case h_1 i registry found =>
          rw [found] at kept
          exact owned.goesOn task rfl rfl rfl (by simp [machineOf]) (by simp) kept
      case h_2 registry found =>
          rw [found] at kept
          exact owned.goesOn task rfl rfl rfl (by simp [machineOf]) (by simp) kept
  | release index =>
      simp only [Threads.onward, task]
      exact owned.goesOn task rfl rfl rfl (by simp [machineOf]) (by simp) fun x k _ was => was

theorem run (owned : s.Owned) (run : Run OnlyCloses s s') : s'.Owned := by
  induction run with
  | refl => exact owned
  | tail _ stepped ih =>
      obtain ⟨t, move, closes, stepped⟩ := stepped
      rcases step_cases stepped with ⟨e, answer, rfl, -, set⟩ | ⟨-, rfl⟩
      · exact ih.setOut set fun h same => closes h (same ▸ rfl)
      · exact ih.onward t

end Owned

/-! ## All interleavings -/

/-- What holds of the indices of machines, whatever threads have done so far. -/
structure Unique (s : Threads) : Prop where
  apart : ∀ h h' i, s.index? h = some i → s.index? h' = some i → h = h'
  given : ∀ h i, s.index? h = some i →
    i ≠ 0 ∧ i < s.bridge.registry.allocator.next ∧ i ∉ s.bridge.registry.allocator.freed
  /-- A machine keeps its index until its row is removed, and every registration of it that ends
  meanwhile answers that index. -/
  kept : ∀ h k later, s.index? h = some k → Run (Keeps h) s later →
    later.index? h = some k ∧ ∀ t opening,
      later.tasks t = .seek h opening ∨ later.tasks t = .enrol h opening →
      (later.onward t).tasks t = .done (some k)
  /-- If indices are given up only by closing, the table that closing a machine drops is that of an
  index which this machine has and no other; the callables of all others stay. -/
  dropped : Run OnlyCloses {} s → ∀ t h k, s.tasks t = .drop h k →
    s.index? h = some k ∧ ∀ h' i, h' ≠ h → s.index? h' = some i →
      i ≠ k ∧ (s.onward t).bridge.tables.count i = s.bridge.tables.count i ∧
        ∀ f, (s.onward t).bridge.tables.lookup i f = s.bridge.tables.lookup i f

theorem indices_unique (run : Run Anything {} s) : s.Unique := by
  have sound := Sound.empty.run run
  constructor
  · exact sound.registry.apart
  · exact sound.registry.given
  · intro h k later held onward
    have still := index?_run held onward
    exact ⟨still, fun t opening task => answers_index still task⟩
  · intro closing t h k task
    have held := (Owned.empty.run closing).dropping t h k task
    refine ⟨held, ?_⟩
    intro h' i other has
    have apart : i ≠ k := by
      intro same
      subst same
      exact other (sound.registry.apart h' h i has held)
    simp only [onward, task]
    exact ⟨apart, Tables.count_drop_of_ne apart, fun f => Tables.lookup_drop_of_ne apart⟩

/-- Takes the steps of a schedule one after another. -/
def replay (s : Threads) (schedule : List (Nat × Move)) : Option Threads :=
  schedule.foldlM (fun s next => s.step next.1 next.2) s

theorem run_of_replay {allowed : Threads → Nat → Move → Prop} {schedule : List (Nat × Move)}
    (may : ∀ s, ∀ next ∈ schedule, allowed s next.1 next.2) (replayed : s.replay schedule = some s') :
    Run allowed s s' := by
  induction schedule generalizing s with
  | nil =>
      cases replayed
      exact .refl
  | cons next rest ih =>
      obtain ⟨middle, stepped, onward⟩ := Option.bind_eq_some_iff.mp replayed
      have first := may s next List.mem_cons_self
      exact .head ⟨next.1, next.2, first, stepped⟩
        (ih (fun s later member => may s later (List.mem_cons_of_mem _ member)) onward)

/-- Two threads register one machine at once; then one of them opens another machine and begins to
close it. -/
def race : List (Nat × Move) :=
  [(0, .setOut (.openBare ⟨1⟩)), (0, .setOut (.register ⟨1⟩)), (1, .setOut (.register ⟨1⟩)),
    (0, .onward), (1, .onward), (0, .onward), (1, .onward), (0, .setOut (.openLinked ⟨2⟩)),
    (0, .onward), (0, .onward), (0, .setOut (.close ⟨2⟩))]

def raced : Threads := (replay {} race).get rfl

theorem replay_race : replay {} race = some raced := (Option.some_get _).symm

theorem indices_unique_raced : raced.Unique ∧ Run OnlyCloses {} raced ∧
    raced.index? ⟨1⟩ = some 1 ∧ raced.index? ⟨2⟩ = some 2 ∧ raced.tasks 0 = .drop ⟨2⟩ 2 ∧
      raced.tasks 1 = .done (some 1) := by
  have closes : ∀ s, ∀ next ∈ race, OnlyCloses s next.1 next.2 := by
    intro s next member h same
    simp only [race, List.mem_cons, List.not_mem_nil, or_false] at member
    rcases member with rfl | rfl | rfl | rfl | rfl | rfl | rfl | rfl | rfl | rfl | rfl <;> cases same
  exact ⟨indices_unique (run_of_replay (fun _ _ _ => trivial) replay_race),
    run_of_replay closes replay_race, rfl, rfl, rfl, rfl⟩

end GuestVM.Threads
