import GuestVM.Proofs.Scene

/-! # The hooks of walks

A walk that the host begins has its hook in the table from before its first visit until it is over.
Walks that wait at the same time are nested, so the hooks in the table are those of the waiting walks,
the innermost first, each under an address of its own (`Hooks.Await`).  A walk therefore finds its own
callback whenever it calls back, through the table as well as without it. -/
set_option autoImplicit false

namespace GuestVM

namespace Hooks

variable {h : Hooks}

theorem ne_fresh {row : Nat × HookKind} (member : row ∈ h.rows) : row.1 ≠ h.fresh := by
  have listed : row.1 + 1 ∈ h.rows.map fun row => row.1 + 1 := List.mem_map_of_mem member
  obtain ⟨top, found⟩ := Option.isSome_iff_exists.mp (List.isSome_max?_of_mem listed)
  have below : row.1 + 1 ≤ top := (List.max?_eq_some_iff.mp found).2 _ listed
  rw [fresh, found, Option.getD_some]
  omega

theorem filter_ne_fresh (h : Hooks) : h.rows.filter (·.1 != h.fresh) = h.rows :=
  List.filter_eq_self.mpr fun _ member => by simpa using ne_fresh member

theorem rows_install (h : Hooks) (kind : HookKind) :
    (h.install h.fresh kind).rows = (h.fresh, kind) :: h.rows := by
  rw [install, filter_ne_fresh]

theorem remove_install (h : Hooks) (kind : HookKind) : (h.install h.fresh kind).remove h.fresh = h := by
  rw [remove, rows_install, List.filter_cons_of_neg (by simp), filter_ne_fresh]

end Hooks

/-- A walk that has hooked itself and is over at once leaves the table as it was. -/
theorem Memory.unhook_hook (m : Memory) (route : Route) (kind : HookKind) :
    (m.hook route kind).2.unhook (m.hook route kind).1 = m := by
  cases route with
  | direct => rfl
  | hooked =>
      change { m with hooks := (m.hooks.install m.hooks.fresh kind).remove m.hooks.fresh } = m
      rw [Hooks.remove_install]

/-! ## Hooks of what waits -/

/-- The hook of a waiting walk. -/
def Pending.hook? : Pending → Option (Nat × HookKind)
  | .entry hook .. => hook.map (·, .hash)
  | .object hook .. => hook.map (·, .object)
  | _ => none

/-- The live hooks are those of what waits. -/
structure Hooks.Await (h : Hooks) (pending : List Pending) : Prop where
  rows : h.rows = pending.filterMap Pending.hook?
  apart : (h.rows.map (·.1)).Nodup

/-- A call back of a walk comes to its visit. -/
def Memory.Calls (m : Memory) (kind : HookKind) (hook : Option Nat) : Prop :=
  ∀ address, hook = some address → m.hooks.isLive address kind

theorem Memory.Calls.callback {m : Memory} {kind : HookKind} {hook : Option Nat} {α : Type}
    (calls : m.Calls kind hook) (visit stray : α) : m.callback kind hook visit stray = visit := by
  cases hook with
  | none => rfl
  | some address => rw [Memory.callback, Hooks.callback, calls address rfl, if_pos rfl]

section Awaiting

variable {m : Memory} {kind : HookKind} {hook : Option Nat} {walk walk' : Pending}
  {pending : List Pending}

theorem Hooks.Await.congr (await : m.hooks.Await (walk :: pending)) (same : walk'.hook? = walk.hook?) :
    m.hooks.Await (walk' :: pending) := by
  refine ⟨?_, await.apart⟩
  rw [await.rows, List.filterMap_cons, List.filterMap_cons, same]

/-- What has no hook may wait or not. -/
theorem Hooks.await_cons_iff (unhooked : walk.hook? = none) :
    m.hooks.Await (walk :: pending) ↔ m.hooks.Await pending := by
  have same : (walk :: pending).filterMap Pending.hook? = pending.filterMap Pending.hook? :=
    List.filterMap_cons_none unhooked
  exact ⟨fun await => ⟨await.rows.trans same, await.apart⟩,
    fun await => ⟨await.rows.trans same.symm, await.apart⟩⟩

theorem Memory.await_hook (await : m.hooks.Await pending) (route : Route) (kind : HookKind)
    (own : walk.hook? = (m.hook route kind).1.map (·, kind)) :
    (m.hook route kind).2.hooks.Await (walk :: pending) := by
  cases route with
  | direct => exact (Hooks.await_cons_iff own).mpr await
  | hooked =>
      have rows := m.hooks.rows_install kind
      refine ⟨?_, ?_⟩
      · rw [List.filterMap_cons_some own, ← await.rows]
        exact rows
      · have fresh : m.hooks.fresh ∉ m.hooks.rows.map (·.1) := by
          intro listed
          obtain ⟨row, member, same⟩ := List.mem_map.mp listed
          exact Hooks.ne_fresh member same
        change ((m.hooks.install m.hooks.fresh kind).rows.map (·.1)).Nodup
        rw [rows, List.map_cons]
        exact List.nodup_cons.mpr ⟨fresh, await.apart⟩

theorem Memory.await_unhook (await : m.hooks.Await (walk :: pending))
    (own : walk.hook? = hook.map (·, kind)) : (m.unhook hook).hooks.Await pending := by
  cases hook with
  | none => exact (Hooks.await_cons_iff own).mp await
  | some address =>
      have rows : m.hooks.rows = (address, kind) :: pending.filterMap Pending.hook? :=
        await.rows.trans (List.filterMap_cons_some own)
      have apart := await.apart
      rw [rows, List.map_cons, List.nodup_cons] at apart
      have left : (m.hooks.remove address).rows = pending.filterMap Pending.hook? := by
        rw [Hooks.remove, rows, List.filter_cons_of_neg (by simp)]
        refine List.filter_eq_self.mpr fun row member => ?_
        have other : row.1 ≠ address := by
          rintro rfl
          exact apart.1 (List.mem_map.mpr ⟨row, member, rfl⟩)
        simpa using other
      exact ⟨left, by rw [Memory.unhook, left]; exact apart.2⟩

theorem Memory.calls_of_await (await : m.hooks.Await (walk :: pending))
    (own : walk.hook? = hook.map (·, kind)) : m.Calls kind hook := by
  intro address same
  subst same
  have rows : m.hooks.rows = (address, kind) :: pending.filterMap Pending.hook? :=
    await.rows.trans (List.filterMap_cons_some own)
  rw [Hooks.isLive, rows, List.lookup_cons_self]
  exact beq_self_eq_true _

end Awaiting

/-! ## Steps -/

namespace Stage

variable {α : Type} {s s' : Stage}

theorem memory_of_act {a : Act α} {r : Except Raised α} (acted : s.act a = some (r, s')) :
    s'.memory = s.memory := by
  rw [(run_of_act acted).1]

theorem memory_of_ask {a : Act α} {x : α} (asked : s.ask a = some (x, s')) :
    s'.memory = s.memory := memory_of_act (ask_eq_some.mp asked)

theorem memory_of_askBridge {d : Bridge.Deed α} {x : α} (asked : s.askBridge d = some (x, s')) :
    s'.memory = s.memory := by
  unfold askBridge at asked
  split at asked
  case h_1 y bridge after found =>
      cases asked
      exact (memory_of_ask found : after.memory = s.memory)
  case h_2 => cases asked

theorem hooks_askMemory {a : Answer} (s : Stage) (r : MemoRequest a) :
    (s.askMemory r).2.memory.hooks = s.memory.hooks := by
  cases r <;> rfl

theorem memory_of_surface {o : Outcome} {r : Except Raised Value}
    (surfaced : s.surface o = some (r, s')) : s'.memory = s.memory := by
  cases o with
  | value v =>
      cases surfaced
      rfl
  | raised e =>
      cases surfaced
      rfl
  | failed e =>
      obtain ⟨⟨raised, after⟩, asked, same⟩ := Option.map_eq_some_iff.mp surfaced
      cases same
      exact memory_of_ask asked

theorem memory_of_handOn {d : Discipline} {o : Outcome} {v : Value}
    (handed : s.handOn d o = some (v, s')) : s'.memory = s.memory := by
  cases o with
  | value v =>
      cases handed
      rfl
  | raised e =>
      cases d with
      | direct =>
          cases handed
          rfl
      | fallible => exact memory_of_ask handed
  | failed e => exact memory_of_ask handed

end Stage

namespace Scene

variable {a b : Scene} {hook : Option Nat} {hash : Value} {removing : Bool} {position n : Nat}
  {visit : Nat → Value → Value → Script} {next : Except Raised Nat → Script} {outer : List Pending}
  {s : Stage}

/-- The live hooks of a scene are those of its waiting walks. -/
def Hooked (a : Scene) : Prop := a.stage.memory.hooks.Await a.pending

theorem hooked_atEntry (await : s.memory.hooks.Await
      (.entry hook hash removing position n visit next :: outer)) :
    (atEntry hook hash removing position n visit next outer s).Hooked := by
  unfold atEntry
  split
  · exact Memory.await_unhook await rfl
  · exact await

theorem hooked_atObject {id : ObjId} {before before' rest rest' : List ObjId}
    {visit : Nat → ObjId → Script} {next : List ObjId → Script} {k : Nat}
    (await : s.memory.hooks.Await (.object hook n id before rest visit next :: outer)) :
    (atObject hook k before' rest' visit next outer s).Hooked := by
  rcases atObject_cases hook k before' rest' visit next outer s with
    ⟨-, ended⟩ | ⟨x, left, -, -, onward⟩
  · rw [ended]
    exact Memory.await_unhook await rfl
  · rw [onward]
    exact await.congr rfl

theorem hooked_entering {begin : Act Script} {next : Except Raised Value → Script}
    (await : s.memory.hooks.Await outer) (entered : entering begin next outer s = some b) :
    b.Hooked := by
  obtain ⟨⟨code, after⟩, acted, same⟩ := Option.map_eq_some_iff.mp entered
  have memory := Stage.memory_of_act acted
  cases code with
  | error e =>
      cases same
      rwa [Hooked, memory]
  | ok x =>
      cases same
      rw [Hooked, memory]
      exact (Hooks.await_cons_iff rfl).mpr await

theorem hooked_resume {o : Outcome} {pending : List Pending} (await : s.memory.hooks.Await pending)
    (resumed : resume o s pending = some b) : b.Hooked := by
  rcases pending with - | ⟨first, rest⟩
  · cases resumed
  cases first with
  | call depth next | shield depth next =>
      obtain ⟨⟨r, after⟩, surfaced, rfl⟩ := Option.map_eq_some_iff.mp resumed
      have memory := Stage.memory_of_surface surfaced
      change after.memory.hooks.Await rest
      rw [memory]
      exact (Hooks.await_cons_iff rfl).mp await
  | host discipline next =>
      obtain ⟨⟨v, after⟩, handed, rfl⟩ := Option.map_eq_some_iff.mp resumed
      have memory := Stage.memory_of_handOn handed
      change after.memory.hooks.Await rest
      rw [memory]
      exact (Hooks.await_cons_iff rfl).mp await
  | entry hook hash removing position n visit next =>
      obtain ⟨⟨r, after⟩, surfaced, rfl⟩ := Option.map_eq_some_iff.mp resumed
      rw [← Stage.memory_of_surface surfaced] at await
      dsimp only
      split
      · exact hooked_atEntry (await.congr rfl)
      · split
        · exact hooked_atEntry (await.congr rfl)
        · exact hooked_atEntry (await.congr rfl)
      · exact Memory.await_unhook await rfl
  | object hook n id before others visit next =>
      obtain ⟨⟨r, after⟩, surfaced, rfl⟩ := Option.map_eq_some_iff.mp resumed
      rw [← Stage.memory_of_surface surfaced] at await
      dsimp only
      split
      · exact hooked_atObject await
      · exact Memory.await_unhook await rfl

/-- By cases of what runs; only walks have hooks. -/
theorem hooked_step (hooked : a.Hooked) (stepped : a.step = some b) : b.Hooked := by
  obtain ⟨script, pending, s⟩ := a
  have await : s.memory.hooks.Await pending := hooked
  cases script with
  | done o => exact hooked_resume await stepped
  | guest r next =>
      obtain ⟨⟨x, after⟩, asked, rfl⟩ := Option.map_eq_some_iff.mp stepped
      change after.memory.hooks.Await pending
      rwa [Stage.memory_of_ask asked]
  | newNative body next | newLexical body next =>
      simp only [step] at stepped
      obtain ⟨⟨x, after⟩, asked, rfl⟩ := Option.map_eq_some_iff.mp stepped
      change after.memory.hooks.Await pending
      rwa [Stage.memory_of_ask asked]
  | bridge r next =>
      obtain ⟨⟨x, after⟩, asked, rfl⟩ := Option.map_eq_some_iff.mp stepped
      change after.memory.hooks.Await pending
      rwa [Stage.memory_of_askBridge asked]
  | memo r next =>
      cases stepped
      change (s.askMemory r).2.memory.hooks.Await pending
      rwa [Stage.hooks_askMemory]
  | call receiver mid args block next => exact hooked_entering await stepped
  | callProc proc self args next => exact hooked_entering await stepped
  | protect body next =>
      cases stepped
      exact (Hooks.await_cons_iff rfl).mpr await
  | register index form discipline body aspec next =>
      cases stepped
      exact await
  | hostCall form index receiver function args next =>
      obtain ⟨⟨admitted, after⟩, asked, same⟩ := Option.map_eq_some_iff.mp stepped
      have memory := Stage.memory_of_ask asked
      cases admitted with
      | error v =>
          cases same
          rwa [Hooked, memory]
      | ok c =>
          cases same
          rw [Hooked, memory]
          exact (Hooks.await_cons_iff rfl).mpr await
  | walkHash route hash visit next =>
      obtain ⟨⟨checked, after⟩, acted, same⟩ := Option.map_eq_some_iff.mp stepped
      have memory : after.memory = (s.memory.hook route .hash).2 := Stage.memory_of_act acted
      cases checked with
      | error e =>
          cases same
          change (after.memory.unhook (s.memory.hook route .hash).1).hooks.Await pending
          rwa [memory, Memory.unhook_hook]
      | ok id =>
          cases same
          refine hooked_atEntry ?_
          change after.memory.hooks.Await _
          rw [memory]
          exact Memory.await_hook await route .hash rfl
  | walkHeap route visit next =>
      cases stepped
      -- Which object the walk waits at does not matter to its hook.
      let walk : Pending := .object (s.memory.hook route .object).1 0 default [] [] visit next
      have await' : (s.memory.hook route .object).2.hooks.Await (walk :: pending) :=
        Memory.await_hook await route .object rfl
      exact hooked_atObject await'

end Scene

end GuestVM
