import GuestVM.Proofs.Heap.Histories
import GuestVM.Proofs.Lifetime
import GuestVM.Proofs.Scene.Visiting

/-! # Walks over the heap

A walk over the heap passes the objects that are alive when it begins, whatever its visits do: it goes
through a list made at its beginning, and while any walk waits, collections are refused, so the objects
on the list stay alive and none is passed over as dead.  Both rest on the number of walks under way,
which visits may leave in many ways and which hash walks count in as well.  A walk that the host begins
through the table of hooks is no different, since its hook is live at each visit. -/
set_option autoImplicit false

namespace GuestVM

/-! ## Collections and walks -/

namespace Machine

variable {m : Machine}

/-- A collection answers that it has freed nothing, and changes nothing. -/
def RefusesToCollect (m : Machine) : Prop := Act.collect.run.run m = (.ok 0, m)

/-- A collection is counted and leaves exactly what can be reached, as it was. -/
def Collects (m : Machine) : Prop :=
  ∃ freed h, Act.collect.run.run m = (.ok freed, { m with heap := h }) ∧
    h.collections = m.heap.collections + 1 ∧
    ∀ x o, h.get? x = some o ↔
      m.heap.get? x = some o ∧ m.heap.Reachable (m.roots ++ m.heap.arena.toList) x

theorem refuses_of_suspended (suspended : m.heap.isSuspended = true) : m.RefusesToCollect := by
  change (Except.ok ((m.heap.collect m.roots).1.getD 0),
    { m with heap := (m.heap.collect m.roots).2 }) = _
  rw [Heap.collect_of_suspended suspended]
  rfl

theorem collects_of_running (tidy : m.heap.Tidy) (running : m.heap.isSuspended = false) :
    m.Collects := by
  refine ⟨_, (m.heap.collect m.roots).2, rfl, ?_, fun x o => Heap.get?_collect tidy running⟩
  have counted := congrArg Heap.collections
    (Heap.marks_mark m.heap (m.heap.startingWork m.roots)).remarked.rest
  rw [Heap.collect_of_running running]
  exact congrArg (· + 1) counted

end Machine

namespace Scene

variable {a b : Scene} {x : ObjId}

/-- Nothing dies in a step while a walk is under way. -/
theorem step_spares (stepped : a.step = some b) (tidy : a.stage.machine.heap.Tidy)
    (walking : a.stage.machine.heap.walks ≠ 0) (live : a.stage.machine.Live x) :
    b.stage.machine.Live x := by
  rcases step_walking stepped tidy walking with ⟨quiet, evolution⟩ | same
  · exact evolution.live tidy quiet live
  · rwa [same]

/-- Where the object ahead is alive and the hook is live, a walk goes on with the visit of it. -/
theorem atObject_cons_of_live {hook : Option Nat} {id : ObjId} {s : Stage}
    (live : s.machine.Live id) (calls : s.memory.Calls .object hook) (n : Nat)
    (before rest : List ObjId) (visit : Nat → ObjId → Script) (next : List ObjId → Script)
    (outer : List Pending) :
    atObject hook n before (id :: rest) visit next outer s =
      ⟨visit n id, .object hook n id before rest visit next :: outer, s⟩ := by
  have present : ¬ s.machine.heap.isDead id := by
    obtain ⟨o, found⟩ := live.object?
    have found : s.machine.heap.get? id = some o := found
    simp [Heap.isDead, found]
  rw [atObject, if_neg present, calls.callback]

/-- After a visit that asks to go on the walk goes to the next id, and after any other it is over. -/
theorem step_object {hook : Option Nat} {n : Nat} {id : ObjId} {before rest : List ObjId}
    {visit : Nat → ObjId → Script} {next : List ObjId → Script} {outer : List Pending} {o : Outcome} {r : Except Raised Value}
    {s t : Stage} (told : s.surface o = some (r, t))
    (stepped : step ⟨.done o, .object hook n id before rest visit next :: outer, s⟩ = some b) :
    (WalkStatus.ofResult r = .next ∧
        b = atObject hook (n + 1) (before ++ [id]) rest visit next outer t) ∨
      (WalkStatus.ofResult r ≠ .next ∧
        b = ⟨next (before ++ [id]), outer, t.endWalk hook⟩) := by
  simp only [step, resume, told, Option.map_some, Option.some.injEq] at stepped
  cases status : WalkStatus.ofResult r with
  | next =>
      rw [status] at stepped
      exact .inl ⟨rfl, stepped.symm⟩
  | _ =>
      rw [status] at stepped
      exact .inr ⟨by simp, stepped.symm⟩

end Scene

namespace Situation

attribute [local irreducible] Machine.opened

variable {now later first middle : Situation} {name : String} {p : Pending} {outer : List Pending}
  {x : ObjId} {a : Scene} {allowed : Situation → Move → Prop} {ids : List ObjId}
  {visit : Nat → ObjId → Script} {next : List ObjId → Script}
  {done : List (Script × WalkStatus)} {s : Stage} {hook : Option Nat}

/-- Collections are refused exactly while they are forbidden or a walk waits. -/
structure CollectsBetweenWalks (name : String) (now : Situation) : Prop where
  walking : ∀ a, now.scene? name = some a → (∃ p ∈ a.pending, p.Walks) →
    a.stage.machine.RefusesToCollect
  between : ∀ i, now.world.instance? name = some i →
    (∀ a, now.scene? name = some a → ∀ p ∈ a.pending, ¬ p.Walks) →
      if i.machine.heap.disabled then i.machine.RefusesToCollect else i.machine.Collects

theorem no_walks (run : Run allowed {} now) {i : Instance}
    (present : now.world.instance? name = some i)
    (still : ∀ a, now.scene? name = some a → ∀ p ∈ a.pending, ¬ p.Walks) :
    i.machine.heap.walks = 0 := by
  have counts := counts_of_run run name
  cases playing : now.plays name with
  | none => exact counts.idle present playing
  | some p =>
      have shown : now.scene? name =
          some ⟨p.script, p.pending, ⟨i.machine, now.world.bridge, p.memory⟩⟩ := by
        simp only [scene?, present, playing]
      by_contra walking
      obtain ⟨p, member, walks⟩ := (counts.walking_iff shown).mp walking
      exact still _ shown p member walks

theorem collects_between_walks (run : Run allowed {} now) : CollectsBetweenWalks name now := by
  constructor
  · intro a shown waits
    have walking := ((counts_of_run run name).walking_iff shown).mpr waits
    exact Machine.refuses_of_suspended (by simp [Heap.isSuspended, walking])
  · intro i present still
    have none := no_walks run present still
    split
    case isTrue disabled => exact Machine.refuses_of_suspended (by simp [Heap.isSuspended, disabled])
    case isFalse enabled =>
        exact Machine.collects_of_running (tidy_of_run run present)
          (by simp [Heap.isSuspended, enabled, none])

/-! ## What a walk passes -/

theorem spares_walking {a b : Scene} (run : Run Anything {} now) (walks : p.Walks)
    (shown : now.scene? name = some a) (waits : p ∈ a.pending) (stepped : a.step = some b)
    (live : a.stage.machine.Live x) : b.stage.machine.Live x :=
  Scene.step_spares stepped (tidy_of_shown run shown)
    (((counts_of_run run name).walking_iff shown).mpr ⟨p, waits, walks⟩) live

/-- What is alive where a visit begins is alive until the visit is over. -/
theorem alive_under {b : Scene} (run : Run Anything {} now) (walks : p.Walks)
    (shown : now.scene? name = some a) (live : a.stage.machine.Live x)
    (onward : Run (Under allowed name (p :: outer)) now later) (after : later.scene? name = some b)
    (waits : p :: outer <:+ b.pending) : Run Anything {} later ∧ b.stage.machine.Live x := by
  refine kept_shown (P := (·.Live x)) ?_ run shown live onward after waits
  intro now a b run _ shown _ waits stepped _ live
  exact spares_walking run walks shown (waits.subset (List.mem_cons_self ..)) stepped live

/-- Where a heap walk is after some visits. -/
inductive AtObject (hook : Option Nat) (ids : List ObjId) (visit : Nat → ObjId → Script)
    (next : List ObjId → Script) (outer : List Pending) (done : List (Script × WalkStatus)) (a : Scene) : Prop
  | onward (s : Stage) (went : ∀ e ∈ done, e.2 = .next) (alive : ∀ x ∈ ids, s.machine.Live x)
      (calls : s.memory.Calls .object hook) (same : a =
        Scene.atObject hook done.length (ids.take done.length) (ids.drop done.length) visit next
          outer s)
  | stopped (s : Stage) (e : Script × WalkStatus) (last : done.getLast? = some e) (stop : e.2 ≠ .next)
      (same : a = ⟨next (ids.take done.length), outer, s⟩)

theorem mem_of_drop {k : Nat} {id : ObjId} {rest : List ObjId} (ahead : ids.drop k = id :: rest) :
    id ∈ ids := List.mem_of_mem_drop (ahead ▸ List.mem_cons_self ..)

/-- A walk is at the visit of the next id, or it is over: it has visited all or was stopped. -/
theorem AtObject.turn_or_over {a : Scene}
    (stands : AtObject hook ids visit next outer done a) :
    (∃ id t, (∀ e ∈ done, e.2 = .next) ∧ ids[done.length]? = some id ∧
      a = ⟨visit done.length id, .object hook done.length id (ids.take done.length)
        (ids.drop (done.length + 1)) visit next :: outer, t⟩ ∧ ∀ x ∈ ids, t.machine.Live x) ∨
    ∃ t, (ids.length ≤ done.length ∨ ∃ e ∈ done, e.2 ≠ .next) ∧
      a = ⟨next (ids.take done.length), outer, t⟩ := by
  cases stands with
  | stopped t e last stop same => exact .inr ⟨t, .inr ⟨e, List.mem_of_getLast? last, stop⟩, same⟩
  | onward t went alive calls same =>
      cases ahead : ids.drop done.length with
      | nil =>
          rw [ahead] at same
          exact .inr ⟨_, .inl (List.drop_eq_nil_iff.mp ahead), same⟩
      | cons id rest =>
          rw [ahead, Scene.atObject_cons_of_live (alive id (mem_of_drop ahead)) calls] at same
          have turn : ids[done.length]? = some id := by
            have first := congrArg (·[0]?) ahead
            simpa using first
          have later : ids.drop (done.length + 1) = rest := by
            rw [← List.tail_drop, ahead]
            rfl
          rw [← later] at same
          exact .inl ⟨id, t, went, turn, same, alive⟩

/-- A visit of a walk that is under way is that of the next id. -/
theorem AtObject.turn {script : Script} {walk : Pending}
    (stands : AtObject hook ids visit next outer done ⟨script, walk :: outer, s⟩) :
    (∀ e ∈ done, e.2 = .next) ∧ ∃ id, ids[done.length]? = some id ∧ script = visit done.length id ∧
      walk = .object hook done.length id (ids.take done.length) (ids.drop (done.length + 1)) visit
        next ∧ ∀ x ∈ ids, s.machine.Live x := by
  rcases stands.turn_or_over with ⟨id, t, went, turn, same, alive⟩ | ⟨t, -, same⟩
  · cases same
    exact ⟨went, id, turn, rfl, rfl, alive⟩
  · exact (Scene.pending_ne same rfl).elim

/-- A walk that is over has visited all ids or was stopped. -/
theorem AtObject.ended {a : Scene} (passed : Passed (· = .next) ids visit done)
    (stands : AtObject hook ids visit next outer done a) (past : a.pending = outer) :
    (done.length = ids.length ∨ ∃ e ∈ done, e.2 ≠ .next) ∧
      ∃ s, a = ⟨next (ids.take done.length), outer, s⟩ := by
  rcases stands.turn_or_over with ⟨id, t, -, -, rfl, -⟩ | ⟨t, all | stopped, same⟩
  · exact (List.cons_ne_self _ _ past).elim
  · exact ⟨.inl (Nat.le_antisymm passed.length_le all), t, same⟩
  · exact ⟨.inr stopped, t, same⟩

theorem AtObject.goesOn {id : ObjId} {o : Outcome} {r : Except Raised Value} {u : Stage} {b : Scene}
    (went : ∀ e ∈ done, e.2 = .next) (turn : ids[done.length]? = some id)
    (tidy : s.machine.heap.Tidy) (alive : ∀ x ∈ ids, s.machine.Live x)
    (calls : s.memory.Calls .object hook) (told : s.surface o = some (r, u))
    (stepped : Scene.step ⟨.done o, .object hook done.length id (ids.take done.length)
      (ids.drop (done.length + 1)) visit next :: outer, s⟩ = some b) :
    AtObject hook ids visit next outer (done ++ [(visit done.length id, .ofResult r)]) b := by
  have one : (done ++ [(visit done.length id, WalkStatus.ofResult r)]).length = done.length + 1 :=
    List.length_append
  have taken : ids.take (done.length + 1) = ids.take done.length ++ [id] := by
    rw [List.take_add_one, turn]
    rfl
  rcases Scene.step_object told stepped with ⟨status, same⟩ | ⟨status, same⟩
  · have evolution : Evolution {} s.machine u.machine := (Stage.surface_evolution tidy told).1
    have memory := Stage.memory_of_surface told
    refine .onward u ?_ (fun x member => evolution.live tidy rfl (alive x member)) (memory ▸ calls)
      (by rw [one, taken, same])
    intro e member
    rcases List.mem_append.mp member with old | new
    · exact went e old
    · rw [List.mem_singleton.mp new]
      exact status
  · exact .stopped _ _ List.getLast?_concat status (by rw [one, taken, same])

theorem Visits.passes (visits : Visits allowed name outer first done middle)
    (run : Run Anything {} first) (alive : ∀ x ∈ ids, s.machine.Live x)
    (calls : s.memory.Calls .object hook)
    (shown : first.scene? name = some (Scene.atObject hook 0 [] ids visit next outer s)) :
    Run Anything {} middle ∧ Passed (· = .next) ids visit done ∧
      ∃ a, middle.scene? name = some a ∧ AtObject hook ids visit next outer done a := by
  induction visits with
  | none => exact ⟨run, ⟨rfl, nofun⟩, _, shown, .onward s nofun alive calls rfl⟩
  | visit before starts walks runs ends told goes ih =>
      obtain ⟨reached, passed, a, found, stands⟩ := ih
      cases found.symm.trans starts
      obtain ⟨went, id, turn, rfl, rfl, alive⟩ := stands.turn
      have closes : Run Anything {} _ := reached.trans (Run.mono (fun _ _ _ => trivial) runs)
      have onward := closes.tail ⟨_, trivial, goes⟩
      obtain ⟨i, b, -, -, stepped, rfl⟩ := goes.acted ends
      have still := fun x member =>
        (alive_under reached walks starts (alive x member) runs ends List.suffix_rfl).2
      have calls := Memory.calls_of_await (hooked_of_run closes ends) rfl
      exact ⟨onward, passed.concat went turn, b, scene?_showing,
        .goesOn went turn (tidy_of_shown closes ends) still calls told stepped⟩

/-- A walk over some ids that began in `first` has made some visits, and the last of them has left the
machine in `middle`. -/
inductive HeapWalkStands (name : String) (outer : List Pending) (visit : Nat → ObjId → Script)
    (next : List ObjId → Script) (ids : List ObjId) (done : List (Script × WalkStatus))
    (middle later : Situation) : Prop
  | visiting (id : ObjId) (walk : Pending) (s : Stage) (went : ∀ e ∈ done, e.2 = .next)
      (turn : ids[done.length]? = some id) (walks : walk.Walks)
      (shown : middle.scene? name = some ⟨visit done.length id, walk :: outer, s⟩)
      (onward : Run (Under Anything name (walk :: outer)) middle later)
      (inside : Inside name (walk :: outer) later) (alive : ∀ x ∈ ids, Lives name x later)
  | finished (s : Stage) (ended : done.length = ids.length ∨ ∃ e ∈ done, e.2 ≠ .next)
      (shown : middle.scene? name = some ⟨next (ids.take done.length), outer, s⟩)
      (onward : Run (Under Anything name outer) middle later)

/-- A heap walk passes the ids of the objects that were alive when it began, in order, as far as its
visits ask to go on, and as long as it is under way they are all alive. -/
structure PassesSnapshot (name : String) (outer : List Pending) (visit : Nat → ObjId → Script)
    (next : List ObjId → Script) (m : Machine) (first later : Situation) : Prop where
  listed : ∀ x, x ∈ m.heap.liveIds ↔ m.Live x
  ascending : m.heap.liveIds.Pairwise (·.slot < ·.slot)
  visits : ∃ done middle, Visits Anything name outer first done middle ∧
    Passed (· = .next) m.heap.liveIds visit done ∧
      HeapWalkStands name outer visit next m.heap.liveIds done middle later

theorem heap_walks_pass_snapshots (run : Run Anything {} now) :
    CollectsBetweenWalks name now ∧
      ∀ route visit next outer s first later,
        now.scene? name = some ⟨.walkHeap route visit next, outer, s⟩ → Next now (.act name) first →
          Run (Under Anything name outer) first later → Inside name outer later →
            PassesSnapshot name outer visit next s.machine first later := by
  refine ⟨collects_between_walks run, ?_⟩
  intro route visit next outer s first later shown begun onward still
  have listed : ∀ x, x ∈ s.machine.heap.liveIds ↔ s.machine.Live x := fun x => Heap.mem_liveIds
  refine ⟨listed, s.machine.heap.pairwise_liveIds, ?_⟩
  have start := run.tail ⟨_, trivial, begun⟩
  let hook := (s.hook route .object).1
  let hooked : Stage := (s.hook route .object).2.onMachine Machine.beginWalk
  have shown' : first.scene? name =
      some (Scene.atObject hook 0 [] s.machine.heap.liveIds visit next outer hooked) := by
    obtain ⟨i, b, -, -, stepped, rfl⟩ := begun.acted shown
    cases stepped
    exact scene?_showing
  obtain ⟨done, middle, visits, a, found, stands⟩ :=
    visits_of_run start shown' (Scene.walking_atObject ..) onward still
  have calls : hooked.memory.Calls .object hook := by
    let walk : Pending := .object hook 0 default [] [] visit next
    have await : hooked.memory.hooks.Await (walk :: outer) :=
      Memory.await_hook (hooked_of_run run shown) route .object rfl
    exact Memory.calls_of_await await rfl
  obtain ⟨reached, passed, x, found', place⟩ :=
    visits.passes (s := hooked) start (fun x => (listed x).mp) calls shown'
  cases found.symm.trans found'
  refine ⟨done, middle, visits, passed, ?_⟩
  obtain ⟨script, pending, t⟩ := a
  rcases stands with ⟨past, after⟩ | ⟨walk, walks, waits, inner, inside⟩
  · obtain ⟨ended, u, same⟩ := place.ended passed past
    cases same
    exact .finished _ ended found after
  · cases waits
    obtain ⟨went, id, turn, rfl, rfl, alive⟩ := place.turn
    refine .visiting id _ t went turn walks found inner inside fun x member => ?_
    obtain ⟨b, after, waits⟩ := inside
    obtain ⟨i, present, machine, -⟩ := scene?_eq_some after
    exact ⟨i, present,
      machine ▸ (alive_under reached walks found (alive x member) inner after waits).2⟩

/-! ## A walk that is stopped -/

/-- A visit collects, and the second one stops the walk. -/
def glancing (n : Nat) (_ : ObjId) : Script :=
  .guest .collect fun _ => Script.ret (if n = 0 then .nil else .int 1)

def glance : Script := .walkHeap .hooked glancing fun _ => Script.ret .nil

theorem step_refused {s : Stage} (refuses : s.machine.RefusesToCollect) (next : Nat → Script)
    (pending : List Pending) :
    Scene.step ⟨.guest .collect next, pending, s⟩ = some ⟨next 0, pending, s⟩ :=
  Scene.step_guest_of_run (r := .collect) refuses next pending

/-- Two objects are passed. -/
theorem steps_glance {m : Machine} {x y : ObjId} {rest : List ObjId}
    (listed : m.heap.liveIds = x :: y :: rest) :
    ∃ b : Scene, Scene.step ⟨glance, [], { machine := m }⟩ = some b ∧
      Scene.LawfulSteps b ⟨Script.ret .nil, [], { machine := m }⟩ := by
  let walk (n : Nat) (id : ObjId) (before rest : List ObjId) : Pending :=
    .object (some 0) n id before rest glancing fun _ => Script.ret .nil
  let begun : Stage := { machine := m.beginWalk, memory := { hooks := ⟨[(0, .object)]⟩ } }
  have refuses : begun.machine.RefusesToCollect :=
    Machine.refuses_of_suspended (by simp [begun, Heap.isSuspended, Machine.beginWalk, Heap.beginWalk])
  have alive : ∀ id ∈ x :: y :: rest, begun.machine.Live id := fun id member =>
    Heap.mem_liveIds.mp (listed ▸ member)
  have calls : begun.memory.Calls .object (some 0) := by
    rintro address ⟨⟩
    rfl
  have started : Scene.step ⟨glance, [], { machine := m }⟩ = some
      ⟨glancing 0 x, [walk 0 x [] (y :: rest)], begun⟩ := by
    have hooked : Scene.step ⟨glance, [], { machine := m }⟩ = some (Scene.atObject (some 0) 0 []
        m.heap.liveIds glancing (fun _ => Script.ret .nil) [] begun) := rfl
    rw [hooked, listed, Scene.atObject_cons_of_live (alive x (by simp)) calls]
  have first := step_refused refuses (fun _ => Script.ret .nil) [walk 0 x [] (y :: rest)]
  have second : Scene.step ⟨Script.ret .nil, [walk 0 x [] (y :: rest)], begun⟩ =
      some ⟨glancing 1 y, [walk 1 y [x] rest], begun⟩ := by
    have goes : Scene.step ⟨Script.ret .nil, [walk 0 x [] (y :: rest)], begun⟩ =
      some (Scene.atObject (some 0) 1 [x] (y :: rest) glancing (fun _ => Script.ret .nil) []
        begun) := rfl
    rw [goes, Scene.atObject_cons_of_live (alive y (by simp)) calls]
  have third := step_refused refuses (fun _ => Script.ret (.int 1)) [walk 1 y [x] rest]
  have last : Scene.step ⟨Script.ret (.int 1), [walk 1 y [x] rest], begun⟩ =
      some ⟨Script.ret .nil, [], { machine := m }⟩ := rfl
  exact ⟨_, started, .head ⟨rfl, first⟩ (.head ⟨rfl, second⟩ (.head ⟨rfl, third⟩
    (.single ⟨rfl, last⟩)))⟩

theorem two_alive {m : Machine} (original : m.Original) :
    ∃ x y rest, m.heap.liveIds = x :: y :: rest := by
  have alive : ∀ b : Builtin, b.id ∈ m.heap.liveIds := fun b =>
    Heap.mem_liveIds.mpr (original.roots _ (Machine.mem_roots.mpr (.inl ⟨b, rfl⟩)))
  have first := alive .object
  have second := alive .string
  have apart : Builtin.object.id ≠ Builtin.string.id := by decide
  match listed : m.heap.liveIds with
  | [] => simp [listed] at first
  | [x] =>
      rw [listed, List.mem_singleton] at first second
      exact (apart (first.trans second.symm)).elim
  | x :: y :: rest => exact ⟨x, y, rest, rfl⟩

theorem heap_walks_pass_snapshots_glance : ∃ now first later s, Run Anything {} now ∧
    now.scene? "vm" = some ⟨glance, [], s⟩ ∧ Next now (.act "vm") first ∧
      Run (Under Anything "vm" []) first later ∧ Inside "vm" [] later ∧
        (CollectsBetweenWalks "vm" now ∧
          PassesSnapshot "vm" [] glancing (fun _ => Script.ret .nil) s.machine first later) := by
  have run : Run Anything {} (beginning glance) := run_beginning glance trivial trivial
  obtain ⟨x, y, rest, listed⟩ := two_alive (Machine.original_opened ⟨1⟩ {})
  obtain ⟨b, started, steps⟩ := steps_glance listed
  rw [← showing_beginning] at run
  let i : Instance := { machine := .opened ⟨1⟩ {} }
  have begun : Next ((beginning glance).showing "vm" i ⟨glance, [], { machine := .opened ⟨1⟩ {} }⟩)
      (.act "vm") ((beginning glance).showing "vm" i b) := next_showing started rfl
  have onward : Run (Under Anything "vm" []) ((beginning glance).showing "vm" i b)
      ((beginning glance).showing "vm" i ⟨Script.ret .nil, [], { machine := .opened ⟨1⟩ {} }⟩) :=
    run_while steps fun x lawful => ⟨lawful, trivial, x, scene?_showing, List.nil_suffix⟩
  have still : Inside "vm" [] ((beginning glance).showing "vm" i
      ⟨Script.ret .nil, [], { machine := .opened ⟨1⟩ {} }⟩) := ⟨_, scene?_showing, List.nil_suffix⟩
  have all : CollectsBetweenWalks "vm" _ ∧ _ := heap_walks_pass_snapshots run
  exact ⟨_, _, _, _, run, scene?_showing, begun, onward, still, all.1,
    all.2 _ _ _ _ _ _ _ scene?_showing begun onward still⟩

end Situation

end GuestVM
