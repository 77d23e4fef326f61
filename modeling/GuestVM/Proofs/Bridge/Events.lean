import GuestVM.Proofs.Bridge.Registering
import GuestVM.Proofs.Situation

/-! # What happens to the bridge

The registry and the tables change by few kinds of events: a machine gets an index or gives it up, a
table gains or loses a callable, a table is dropped.  A move of a situation is none of these, one, or,
for a linked machine that is closed, two in a row. -/
set_option autoImplicit false

namespace GuestVM

/-! ## Tables -/

namespace CallableTable

variable {t : CallableTable} {c : Callable} {aspec : Aspec} {f g : Nat}

theorem get?_register_self :
    (t.register c aspec).2.get? (t.register c aspec).1 = some ⟨t.slots.size, aspec, c⟩ := by
  simp [register, get?]

theorem get?_register_of_ne (apart : f ≠ (t.register c aspec).1) :
    (t.register c aspec).2.get? f = t.get? f := by
  have other : f ≠ t.slots.size := apart
  simp [register, get?, Array.getElem?_push, other]

theorem get?_remove_of_ne (apart : f ≠ g) : (t.remove g).2.get? f = t.get? f := by
  simp [remove, get?, apart.symm]

theorem get?_remove_self : (t.remove f).2.get? f = none := by
  simp only [remove, get?, Array.getElem?_setIfInBounds, if_true]
  split <;> rfl

theorem count_eq_zero : t.count = 0 ↔ ∀ f, t.get? f = none := by
  rw [count, List.countP_eq_zero]
  constructor
  · intro empty f
    cases found : t.slots[f]? with
    | none => simp [get?, found]
    | some slot =>
        have vacant := empty slot (Array.mem_toList_iff.mpr (Array.mem_of_getElem? found))
        simpa [get?, found] using vacant
  · intro vacant slot member
    obtain ⟨f, found⟩ := Array.mem_iff_getElem?.mp (Array.mem_toList_iff.mp member)
    have gone := vacant f
    simp only [get?, found, Option.join_some] at gone
    simp [gone]

end CallableTable

namespace Tables

variable {t : Tables} {index other f g : Nat} {c : Callable} {aspec : Aspec}

theorem lookup_register_self :
    (t.register index c aspec).2.lookup index (t.register index c aspec).1 =
      some ⟨(t.register index c aspec).1, aspec, c⟩ := by
  simp only [register, lookup, table?_put_self, Option.bind_some]
  exact CallableTable.get?_register_self

theorem lookup_register_of_index (apart : other ≠ index) :
    (t.register index c aspec).2.lookup other f = t.lookup other f := by
  simp only [register, lookup, table?_put_of_ne _ apart]

theorem lookup_register_of_number (apart : f ≠ (t.register index c aspec).1) :
    (t.register index c aspec).2.lookup index f = t.lookup index f := by
  simp only [register, lookup, table?_put_self, Option.bind_some]
  rw [CallableTable.get?_register_of_ne apart]
  cases t.table? index with
  | none => simp [CallableTable.get?]
  | some table => rfl

/-- A number that leads to a callable is not given to another. -/
theorem ne_register_of_lookup {slot : CallableSlot} (found : t.lookup index f = some slot) :
    f ≠ (t.register index c aspec).1 := by
  obtain ⟨table, present, got⟩ := Option.bind_eq_some_iff.mp found
  have inside : f < table.slots.size := by
    by_contra outside
    have beyond : table.slots[f]? = none := Array.getElem?_eq_none (Nat.not_lt.mp outside)
    rw [CallableTable.get?, beyond] at got
    cases got
  have number : (t.register index c aspec).1 = table.slots.size := by
    simp [register, present, CallableTable.register]
  rw [number]
  exact Nat.ne_of_lt inside

theorem lookup_unregister_of_ne (apart : other ≠ index ∨ f ≠ g) :
    (t.unregister index g).2.lookup other f = t.lookup other f := by
  unfold unregister
  cases found : t.table? index with
  | none => rfl
  | some table =>
      by_cases same : other = index
      · subst same
        have number := apart.resolve_left fun differ => differ rfl
        simp only [lookup, table?_put_self, found, Option.bind_some]
        exact CallableTable.get?_remove_of_ne number
      · simp only [lookup, table?_put_of_ne _ same]

theorem lookup_unregister_self : (t.unregister index f).2.lookup index f = none := by
  unfold unregister
  cases found : t.table? index with
  | none => simp [lookup, found]
  | some table =>
      simp only [lookup, table?_put_self, Option.bind_some]
      exact CallableTable.get?_remove_self

@[simp] theorem lookup_drop_self : (t.drop index).lookup index f = none := by
  simp [lookup]

theorem lookup_drop_of_ne (apart : other ≠ index) :
    (t.drop index).lookup other f = t.lookup other f := by
  simp only [lookup, table?_drop_of_ne apart]

theorem count_drop_of_ne (apart : other ≠ index) : (t.drop index).count other = t.count other := by
  simp only [count, table?_drop_of_ne apart]

/-- Nothing is counted under an index exactly when nothing can be called under it. -/
theorem count_eq_zero : t.count index = 0 ↔ ∀ f, t.lookup index f = none := by
  cases found : t.table? index with
  | none => simp [count, lookup, found]
  | some table =>
      simp only [count, lookup, found, Option.map_some, Option.getD_some, Option.bind_some]
      exact CallableTable.count_eq_zero

end Tables

/-! ## Events -/

inductive Bridge.Event where
  | enrol (h : Handle)
  | forget (h : Handle)
  | gain (index : Nat) (c : Callable) (aspec : Aspec)
  | lose (index function : Nat)
  | drop (index : Nat)

namespace Bridge

def after (b : Bridge) : Event → Bridge
  | .enrol h => { b with registry := (b.registry.register h).2 }
  | .forget h => { b with registry := (b.registry.unregister h).2 }
  | .gain index c aspec => { b with tables := (b.tables.register index c aspec).2 }
  | .lose index function => { b with tables := (b.tables.unregister index function).2 }
  | .drop index => { b with tables := b.tables.drop index }

def afterAll (b : Bridge) (events : List Event) : Bridge := events.foldl after b

variable {b : Bridge} {e : Event} {h : Handle} {k n : Nat} {slot : CallableSlot}

theorem sound_after (sound : b.registry.Sound) (e : Event) : (b.after e).registry.Sound := by
  cases e with
  | enrol h => exact sound.register h
  | forget h => exact sound.unregister h
  | _ => exact sound

theorem sound_afterAll {events : List Event} (sound : b.registry.Sound) :
    (b.afterAll events).registry.Sound := by
  induction events generalizing b with
  | nil => exact sound
  | cons e rest ih => exact ih (sound_after sound e)

theorem find_after (held : b.registry.find h = some k) (kept : e ≠ .forget h) :
    (b.after e).registry.find h = some k := by
  cases e with
  | enrol x =>
      by_cases same : h = x
      · subst same
        simp only [after, Registry.register_of_found held]
        exact held
      · exact (Registry.find_register_of_ne same).trans held
  | forget x =>
      have apart : h ≠ x := by
        intro same
        exact kept (same ▸ rfl)
      exact (Registry.find_unregister_of_ne apart).trans held
  | _ => exact held

/-- A callable stays under its number until it is taken out or its table is dropped. -/
theorem lookup_after (found : b.tables.lookup k n = some slot) (kept : e ≠ .lose k n)
    (undropped : e ≠ .drop k) : (b.after e).tables.lookup k n = some slot := by
  cases e with
  | gain index c aspec =>
      by_cases same : k = index
      · subst same
        have other : n ≠ (b.tables.register k c aspec).1 := Tables.ne_register_of_lookup found
        exact (Tables.lookup_register_of_number other).trans found
      · exact (Tables.lookup_register_of_index same).trans found
  | lose index function =>
      have apart : k ≠ index ∨ n ≠ function := by
        by_contra both
        push Not at both
        exact kept (both.1 ▸ both.2 ▸ rfl)
      exact (Tables.lookup_unregister_of_ne apart).trans found
  | drop index =>
      have apart : k ≠ index := by
        intro same
        exact undropped (same ▸ rfl)
      exact (Tables.lookup_drop_of_ne apart).trans found
  | _ => exact found

theorem find_afterAll {events : List Event} (held : b.registry.find h = some k)
    (kept : .forget h ∉ events) : (b.afterAll events).registry.find h = some k := by
  induction events generalizing b with
  | nil => exact held
  | cons e rest ih =>
      obtain ⟨first, others⟩ := List.ne_and_not_mem_of_not_mem_cons kept
      exact ih (find_after held first.symm) others

theorem lookup_afterAll {events : List Event} (found : b.tables.lookup k n = some slot)
    (kept : .lose k n ∉ events) (undropped : .drop k ∉ events) :
    (b.afterAll events).tables.lookup k n = some slot := by
  induction events generalizing b with
  | nil => exact found
  | cons e rest ih =>
      obtain ⟨first, others⟩ := List.ne_and_not_mem_of_not_mem_cons kept
      obtain ⟨whole, onward⟩ := List.ne_and_not_mem_of_not_mem_cons undropped
      exact ih (lookup_after found first.symm whole.symm) others onward

end Bridge

def BridgeRequest.events {a : Answer} (r : BridgeRequest a) (h : Handle) : List Bridge.Event :=
  match r with
  | .unregister index function => [.lose index function]
  | .dropTable index => [.drop index]
  | .registerInstance => [.enrol h]
  | .unregisterInstance => [.forget h]
  | _ => []

/-- What the request that a script of a machine begins with does to the bridge. -/
def Script.events (script : Script) (h : Handle) : List Bridge.Event :=
  match script with
  | .bridge r _ => r.events h
  | .register index form discipline body aspec _ => [.gain index ⟨form, discipline, body⟩ aspec]
  | _ => []

theorem Script.effect_eq (script : Script) (h : Handle) (b : Bridge) :
    script.effect h b = b.afterAll (script.events h) := by
  cases script with
  | bridge r next => cases r <;> rfl
  | _ => rfl

namespace Situation

def events (now : Situation) : Move → List Bridge.Event
  | .openLinked _ _ => [.enrol ⟨now.world.nextHandle⟩]
  | .close name =>
    match now.world.instance? name with
    | some i => (i.link.map Bridge.Event.drop).toList ++ [.forget i.machine.handle]
    | none => []
  | .act name =>
    match now.scene? name with
    | some a => a.script.events a.stage.machine.handle
    | none => []
  | _ => []

variable {now later : Situation} {move : Move} {name : String} {i : Instance}

theorem tidy_of_run {allowed : Situation → Move → Prop} (run : Run allowed {} now)
    (present : now.world.instance? name = some i) : i.machine.heap.Tidy := by
  refine Run.machines (P := fun m => m.heap.Tidy)
    (fun h c => (Machine.original_opened h c).tidy) ?_ run present
  intro now name a b may shown lawful stepped tidy
  exact (Scene.step_evolution stepped tidy).1.tidy tidy

theorem tidy_of_shown {allowed : Situation → Move → Prop} {a : Scene} (run : Run allowed {} now)
    (shown : now.scene? name = some a) : a.stage.machine.heap.Tidy := by
  obtain ⟨i, present, machine, -⟩ := scene?_eq_some shown
  rw [machine]
  exact tidy_of_run run present

/-- What the steps of a machine keep is kept as long as the machine stays open. -/
theorem kept_of_run {allowed : Situation → Move → Prop} {P : Machine → Prop}
    (stays : ∀ now move, allowed now move → move ≠ .close name)
    (step : ∀ now a b, allowed now (.act name) → now.scene? name = some a → a.Lawful →
      a.step = some b → a.stage.machine.heap.Tidy → P a.stage.machine → P b.stage.machine)
    (run : Run Anything {} now) (holds : ∃ i, now.world.instance? name = some i ∧ P i.machine)
    (onward : Run allowed now later) :
    Run Anything {} later ∧ ∃ i, later.world.instance? name = some i ∧ P i.machine := by
  induction onward with
  | refl => exact ⟨run, holds⟩
  | tail _ moved ih =>
      obtain ⟨move, may, moved⟩ := moved
      obtain ⟨run, i, present, holds⟩ := ih
      refine ⟨run.tail ⟨move, trivial, moved⟩, ?_⟩
      obtain ⟨j, after, -, same | ⟨a, b, is, shown, stepped, machine, machine'⟩⟩ :=
        moved.onward present (stays _ _ may)
      · exact ⟨j, after, same ▸ holds⟩
      · subst is
        rw [← machine] at holds
        exact ⟨j, after, machine' ▸
          step _ a b may shown (moved.lawful shown) stepped (tidy_of_shown run shown) holds⟩

theorem bridge_of_next {allowed : Situation → Move → Prop} (run : Run allowed {} now)
    (moved : Next now move later) :
    later.world.bridge = now.world.bridge.afterAll (now.events move) := by
  cases moved with
  | openBare => rfl
  | openLinked => rfl
  | begin => rfl
  | finish => rfl
  | close name =>
      simp only [World.close, events]
      cases present : now.world.instance? name with
      | none => rfl
      | some i => cases link : i.link <;> simp [World.unlink, link, Bridge.afterAll, Bridge.after]
  | act name i a b present shown stepped =>
      obtain ⟨k, found, machine, bridge, -⟩ := scene?_eq_some shown
      have tidy := tidy_of_run run found
      rw [← machine] at tidy
      have effect := (Scene.step_evolution stepped tidy).2
      rw [Script.effect_eq, bridge] at effect
      simp only [events, shown]
      exact effect

end Situation

end GuestVM
